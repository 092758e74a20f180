import Mathlib.Data.List.Chain
import Mathlib.Data.List.Nodup
import Mathlib.Data.List.TakeWhile
import ClusterScheduler.SlotSet.Split
import ClusterScheduler.Proofs.IdSetLaws

/-!
# Well-formed slot chains

A slot set keeps its chain as the list of its slots in time order; the `prev` and `next` links
of a slot are its neighbours in the list (`SlotSet.prev?`, `SlotSet.next?`), and the bounds of
the set are those of its first and last slots. Walking the links from the first slot therefore
visits every slot once, in list order, as soon as no two slots share an id. `WellFormed` asks
for that, for slots that begin no later than they end and each begin right after the one before,
and for ids below the counter of fresh ids.

Cutting a slot in two (`splitAt`) replaces it in the list by its two halves; everything about
the chain is read off that one list equation.
-/

namespace ClusterScheduler

namespace Slot

def covers (s : Slot) (t : Int) : Bool := decide (s.begin ≤ t ∧ t ≤ s.end)

def contents (s : Slot) : IdSet × SharedSets × NamedSets := (s.resources, s.shared, s.reserved)

theorem covers_iff {s : Slot} {t : Int} : s.covers t = true ↔ s.begin ≤ t ∧ t ≤ s.end := by
  simp [covers]

@[simp] theorem copy_contents (s : Slot) (i b e : Int) : (s.copy i b e).contents = s.contents := rfl

@[simp] theorem copy_id (s : Slot) (i b e : Int) : (s.copy i b e).id = i := rfl

@[simp] theorem copy_begin (s : Slot) (i b e : Int) : (s.copy i b e).begin = b := rfl

@[simp] theorem copy_end (s : Slot) (i b e : Int) : (s.copy i b e).end = e := rfl

end Slot

namespace SlotSet

def Abut (a b : Slot) : Prop := a.end + 1 = b.begin

/-- A slot set whose list of slots is one chain over `[begin, end]`. -/
structure WellFormed (ss : SlotSet) : Prop where
  nonempty : ss.slots ≠ []
  ordered : ∀ s ∈ ss.slots, s.begin ≤ s.end
  linked : ss.slots.IsChain Abut
  distinct : (ss.slots.map Slot.id).Nodup
  fresh : ∀ s ∈ ss.slots, s.id < ss.nextId
  counter : Word.i32.lo ≤ ss.nextId ∧ ss.nextId ≤ Word.i32.hi
  times : ∀ s ∈ ss.slots, Word.i64.lo ≤ s.begin ∧ s.end ≤ Word.i64.hi

def contentsAt (ss : SlotSet) (t : Int) : Option (IdSet × SharedSets × NamedSets) :=
  (ss.slots.find? (·.covers t)).map Slot.contents

/-! ## Chains in time order -/

theorem pairwise_of_isChain {l : List Slot} (hord : ∀ s ∈ l, s.begin ≤ s.end)
    (hl : l.IsChain Abut) : l.Pairwise fun a b => a.end < b.begin := by
  induction l with
  | nil => exact .nil
  | cons a rest ih =>
    have hrest := ih (fun s hs => hord s (by simp [hs])) hl.tail
    refine List.pairwise_cons.2 ⟨?_, hrest⟩
    cases rest with
    | nil => simp
    | cons b more =>
      have hab : a.end + 1 = b.begin := (List.isChain_cons_cons.1 hl).1
      have hb := hord b (by simp)
      intro c hc
      rcases List.mem_cons.1 hc with rfl | hc
      · omega
      · have := List.rel_of_pairwise_cons hrest hc
        omega

theorem WellFormed.sorted {ss : SlotSet} (hw : ss.WellFormed) :
    ss.slots.Pairwise fun a b => a.end < b.begin :=
  pairwise_of_isChain hw.ordered hw.linked

theorem find?_covers {l : List Slot} (hl : l.Pairwise fun a b => a.end < b.begin) {s : Slot}
    (hs : s ∈ l) {t : Int} (ht : s.covers t = true) : l.find? (·.covers t) = some s := by
  induction l with
  | nil => simp at hs
  | cons a rest ih =>
    rcases List.mem_cons.1 hs with rfl | hs'
    · simp [ht]
    · have hlt := List.rel_of_pairwise_cons hl hs'
      have hna : a.covers t = false := by
        rw [Slot.covers_iff] at ht
        simp [Slot.covers]; omega
      simp [hna, ih hl.of_cons hs']

theorem find?_id {l : List Slot} (hl : (l.map Slot.id).Nodup) {s : Slot} (hs : s ∈ l) :
    l.find? (·.id = s.id) = some s := by
  induction l with
  | nil => simp at hs
  | cons a rest ih =>
    rw [List.map_cons, List.nodup_cons] at hl
    rcases List.mem_cons.1 hs with rfl | hs'
    · simp
    · have hne : a.id ≠ s.id := fun h => hl.1 (h ▸ List.mem_map_of_mem hs')
      simp [hne, ih hl.2 hs']

theorem WellFormed.slot?_of_mem {ss : SlotSet} (hw : ss.WellFormed) {s : Slot}
    (hs : s ∈ ss.slots) : ss.slot? s.id = some s :=
  find?_id hw.distinct hs

theorem mem_of_slot? {ss : SlotSet} {id : Int} {s : Slot} (h : ss.slot? id = some s) :
    s ∈ ss.slots ∧ s.id = id := by
  unfold slot? at h
  exact ⟨List.mem_of_find?_eq_some h, by simpa using List.find?_some h⟩

/-! ## Cutting one slot -/

theorem flatMap_keep {l : List Slot} {i : Int} (ys : List Slot) (h : ∀ x ∈ l, x.id ≠ i) :
    l.flatMap (fun x => if x.id = i then ys else [x]) = l := by
  induction l with
  | nil => rfl
  | cons a rest ih =>
    rw [List.flatMap_cons, if_neg (h a (by simp)), ih (fun x hx => h x (by simp [hx]))]
    rfl

theorem ne_id_of_nodup {pre post : List Slot} {s : Slot}
    (hd : ((pre ++ s :: post).map Slot.id).Nodup) : ∀ x ∈ pre ++ post, x.id ≠ s.id := by
  rw [List.map_append, List.map_cons, List.nodup_middle, List.nodup_cons] at hd
  intro x hx he
  exact hd.1 (by rw [← List.map_append, ← he]; exact List.mem_map_of_mem hx)

theorem flatMap_replace {pre post : List Slot} {s : Slot}
    (hd : ((pre ++ s :: post).map Slot.id).Nodup) (ys : List Slot) :
    (pre ++ s :: post).flatMap (fun x => if x.id = s.id then ys else [x]) = pre ++ ys ++ post := by
  have hne := ne_id_of_nodup hd
  rw [List.flatMap_append, List.flatMap_cons, if_pos rfl,
    flatMap_keep ys (fun x hx => hne x (by simp [hx])),
    flatMap_keep ys (fun x hx => hne x (by simp [hx])), List.append_assoc]

theorem splitAt_eq_cut {ss : SlotSet} (hw : ss.WellFormed) {s : Slot} (hs : s ∈ ss.slots)
    {t : Int} (hlo : s.begin < t) (hhi : t ≤ s.end) (hroom : ss.nextId < Word.i32.hi) :
    ss.splitAt s.id t = .ok (⟨ss.slots.flatMap fun x => if x.id = s.id then
      [{ s with «end» := t - 1 }, s.copy ss.nextId t s.end] else [x], ss.nextId + 1, ss.cache⟩,
      ss.nextId) := by
  have hadd : Word.i32.add ss.nextId 1 = .ok (ss.nextId + 1) :=
    Word.add_ok ⟨by have := hw.counter.1; omega, by omega⟩
  simp only [splitAt, hw.slot?_of_mem hs, hadd]
  rw [if_neg (by omega), if_neg (by omega)]
  rfl

theorem splitAt_at_begin {ss : SlotSet} (hw : ss.WellFormed) {s : Slot} (hs : s ∈ ss.slots) :
    ss.splitAt s.id s.begin = .ok (ss, s.id) := by
  have hord := hw.ordered s hs
  simp [splitAt, hw.slot?_of_mem hs, hord]

theorem find?_cut {s : Slot} {t : Int} (hlo : s.begin < t) (hhi : t ≤ s.end) (n u : Int)
    (post : List Slot) :
    (({ s with «end» := t - 1 } :: s.copy n t s.end :: post).find? (·.covers u)).map Slot.contents =
      ((s :: post).find? (·.covers u)).map Slot.contents := by
  have hl : ({ s with «end» := t - 1 } : Slot).covers u = decide (s.begin ≤ u ∧ u < t) := by
    simp only [Slot.covers, decide_eq_decide]; omega
  have hr : (s.copy n t s.end).covers u = decide (t ≤ u ∧ u ≤ s.end) := rfl
  by_cases hs : s.covers u = true
  · have hs' := Slot.covers_iff.1 hs
    by_cases hu : u < t
    · simp only [List.find?_cons, hl, hs, decide_eq_true (show s.begin ≤ u ∧ u < t from ⟨hs'.1, hu⟩)]; rfl
    · simp only [List.find?_cons, hl, hr, hs, decide_eq_false (show ¬(s.begin ≤ u ∧ u < t) by omega),
        decide_eq_true (show t ≤ u ∧ u ≤ s.end by omega)]
      rfl
  · have hout : u < s.begin ∨ s.end < u := by
      rw [Slot.covers_iff] at hs; omega
    simp only [Bool.not_eq_true] at hs
    simp only [List.find?_cons, hl, hr, hs, decide_eq_false (show ¬(s.begin ≤ u ∧ u < t) by omega),
      decide_eq_false (show ¬(t ≤ u ∧ u ≤ s.end) by omega)]

/-- `ss'` is `ss` with some slots cut further: a well-formed chain with the contents of `ss` at
every time, its bounds and cache, and at most `k` more fresh ids taken. -/
structure Recut (ss ss' : SlotSet) (k : Nat) : Prop where
  wellFormed : ss'.WellFormed
  sameContents : ∀ t, ss'.contentsAt t = ss.contentsAt t
  begin_eq : ss'.begin = ss.begin
  end_eq : ss'.end = ss.end
  cache_eq : ss'.cache = ss.cache
  nextId_ge : ss.nextId ≤ ss'.nextId
  nextId_le : ss'.nextId ≤ ss.nextId + k

theorem Recut.refl {ss : SlotSet} (hw : ss.WellFormed) : ss.Recut ss 0 :=
  ⟨hw, fun _ => rfl, rfl, rfl, rfl, Int.le_refl _, by omega⟩

theorem Recut.trans {ss ss₁ ss₂ : SlotSet} {k₁ k₂ : Nat} (h₁ : ss.Recut ss₁ k₁)
    (h₂ : ss₁.Recut ss₂ k₂) : ss.Recut ss₂ (k₁ + k₂) := by
  refine ⟨h₂.wellFormed, fun t => (h₂.sameContents t).trans (h₁.sameContents t),
    h₂.begin_eq.trans h₁.begin_eq, h₂.end_eq.trans h₁.end_eq, h₂.cache_eq.trans h₁.cache_eq,
    Int.le_trans h₁.nextId_ge h₂.nextId_ge, ?_⟩
  have := h₁.nextId_le; have := h₂.nextId_le; omega

theorem Recut.mono {ss ss' : SlotSet} {k k' : Nat} (h : ss.Recut ss' k) (hk : k ≤ k') :
    ss.Recut ss' k' :=
  { h with nextId_le := by have := h.nextId_le; omega }

theorem linked_cut {pre post : List Slot} {s : Slot} {t n : Int}
    (hl : (pre ++ s :: post).IsChain Abut) :
    (pre ++ { s with «end» := t - 1 } :: s.copy n t s.end :: post).IsChain Abut := by
  rw [List.isChain_split] at hl
  rw [List.isChain_append_cons_cons]
  refine ⟨?_, by simp [Abut], ?_⟩
  · rw [List.isChain_append] at hl ⊢
    exact ⟨hl.1.1, .singleton _, fun x hx y hy => by
      simp only [List.head?_cons, Option.mem_def, Option.some.injEq] at hy
      subst hy; exact hl.1.2.2 x hx s rfl⟩
  · rw [List.isChain_cons] at hl ⊢
    exact ⟨fun y hy => hl.2.1 y hy, hl.2.2⟩

theorem distinct_cut {pre post : List Slot} {s : Slot} {t n : Int}
    (hd : ((pre ++ s :: post).map Slot.id).Nodup) (hn : ∀ x ∈ pre ++ s :: post, x.id < n) :
    ((pre ++ { s with «end» := t - 1 } :: s.copy n t s.end :: post).map Slot.id).Nodup := by
  have heq : (pre ++ { s with «end» := t - 1 } :: s.copy n t s.end :: post).map Slot.id =
      (pre.map Slot.id ++ [s.id]) ++ n :: post.map Slot.id := by simp
  rw [heq, List.perm_middle.nodup_iff, List.nodup_cons]
  refine ⟨fun hmem => ?_, by simpa using hd⟩
  simp only [List.append_assoc, List.singleton_append, ← List.map_cons, ← List.map_append,
    List.mem_map] at hmem
  obtain ⟨x, hx, rfl⟩ := hmem
  exact Int.lt_irrefl _ (hn x hx)

theorem recut_cut {ss : SlotSet} (hw : ss.WellFormed) {pre post : List Slot} {s : Slot}
    (hl : ss.slots = pre ++ s :: post) {t : Int} (hlo : s.begin < t) (hhi : t ≤ s.end)
    (hroom : ss.nextId < Word.i32.hi) :
    ss.Recut ⟨pre ++ { s with «end» := t - 1 } :: s.copy ss.nextId t s.end :: post,
      ss.nextId + 1, ss.cache⟩ 1 := by
  have hmem : ∀ x ∈ pre ++ { s with «end» := t - 1 } :: s.copy ss.nextId t s.end :: post,
      x ∈ ss.slots ∨ x = { s with «end» := t - 1 } ∨ x = s.copy ss.nextId t s.end := by
    intro x hx
    simp only [List.mem_append, List.mem_cons] at hx
    rw [hl]; simp only [List.mem_append, List.mem_cons]
    rcases hx with hx | rfl | rfl | hx
    · simp [hx]
    · simp
    · simp
    · simp [hx]
  have hs : s ∈ ss.slots := by simp [hl]
  refine ⟨⟨by simp, ?_, linked_cut (hl ▸ hw.linked), distinct_cut (hl ▸ hw.distinct)
    (fun x hx => hw.fresh x (hl ▸ hx)), ?_, ?_, ?_⟩,
    ?_, ?_, ?_, rfl, by dsimp only; omega, by dsimp only; omega⟩
  · intro x hx
    rcases hmem x hx with hx | rfl | rfl
    · exact hw.ordered x hx
    · dsimp only; omega
    · simpa using hhi
  · intro x hx
    dsimp only
    rcases hmem x hx with hx | rfl | rfl
    · have := hw.fresh x hx; omega
    · have := hw.fresh s hs; show s.id < ss.nextId + 1; omega
    · show ss.nextId < ss.nextId + 1; omega
  · dsimp only; have := hw.counter.1; omega
  · intro x hx
    rcases hmem x hx with hx | rfl | rfl
    · exact hw.times x hx
    · exact ⟨(hw.times s hs).1, by dsimp only; have := (hw.times s hs).2; omega⟩
    · have := hw.times s hs; simp only [Slot.copy_begin, Slot.copy_end]; omega
  · intro u
    simp only [contentsAt, hl, List.find?_append]
    cases pre.find? (·.covers u) with
    | some x => rfl
    | none => simpa using find?_cut hlo hhi ss.nextId u post
  · simp only [SlotSet.begin, first?, hl]
    cases pre <;> rfl
  · simp only [SlotSet.end, last?, hl]
    cases post <;> simp

/-- Cutting a slot at a time inside it: the slot keeps its id and its beginning, the slot of
the returned id runs from `t` to the old end, and every other slot stays. -/
theorem splitAt_spec {ss : SlotSet} (hw : ss.WellFormed) {s : Slot} (hs : s ∈ ss.slots) {t : Int}
    (hlo : s.begin ≤ t) (hhi : t ≤ s.end) (hroom : s.begin < t → ss.nextId < Word.i32.hi) :
    ∃ ss' k, ss.splitAt s.id t = .ok (ss', k) ∧ ss.Recut ss' 1 ∧
      (∃ r ∈ ss'.slots, r.id = k ∧ r.begin = t ∧ r.end = s.end) ∧
      (∃ l ∈ ss'.slots, l.id = s.id ∧ l.begin = s.begin ∧ (t = s.begin ∨ l.end = t - 1)) ∧
      ∀ x ∈ ss.slots, x.id ≠ s.id → x ∈ ss'.slots := by
  rcases Int.lt_or_eq_of_le hlo with hlt | rfl
  · obtain ⟨pre, post, hl⟩ := List.append_of_mem hs
    have heq := splitAt_eq_cut hw hs hlt hhi (hroom hlt)
    rw [hl, flatMap_replace (hl ▸ hw.distinct)] at heq
    refine ⟨_, _, heq, by simpa using recut_cut hw hl hlt hhi (hroom hlt),
      ⟨s.copy ss.nextId t s.end, by simp, rfl, rfl, rfl⟩,
      ⟨{ s with «end» := t - 1 }, by simp, rfl, rfl, .inr rfl⟩, ?_⟩
    intro x hx hne
    rw [hl] at hx
    simp only [List.mem_append, List.mem_cons] at hx ⊢
    rcases hx with hx | rfl | hx
    · simp [hx]
    · exact absurd rfl hne
    · simp [hx]
  · exact ⟨ss, s.id, splitAt_at_begin hw hs, (Recut.refl hw).mono (by omega),
      ⟨s, hs, rfl, rfl, rfl⟩, ⟨s, hs, rfl, rfl, .inl rfl⟩, fun x hx _ => hx⟩

/-! ## Finding the slot of a time -/

theorem slotAt_sound {ss : SlotSet} {t : Int} {start : Option Int} {s : Slot}
    (h : ss.slotAt t start = some s) : s ∈ ss.slots ∧ s.covers t = true := by
  unfold slotAt at h
  have hmem := List.mem_of_find?_eq_some h
  have hend : t ≤ s.end := by simpa using List.find?_some h
  have hbeg : s.begin ≤ t := by simpa using List.mem_takeWhile_imp hmem
  exact ⟨(List.dropWhile_suffix _).subset ((List.takeWhile_sublist _).subset hmem),
    Slot.covers_iff.2 ⟨hbeg, hend⟩⟩

theorem dropWhile_ne_id {pre post : List Slot} {x : Slot} (hpre : ∀ a ∈ pre, a.id ≠ x.id) :
    (pre ++ x :: post).dropWhile (·.id ≠ x.id) = x :: post := by
  induction pre with
  | nil => simp
  | cons a rest ih =>
    rw [List.cons_append, List.dropWhile_cons_of_pos (by simpa using hpre a (by simp)),
      ih (fun b hb => hpre b (by simp [hb]))]

theorem WellFormed.from?_eq {ss : SlotSet} (hw : ss.WellFormed) {pre post : List Slot} {x : Slot}
    (hl : ss.slots = pre ++ x :: post) : ss.from? x.id = x :: post := by
  unfold from?; rw [hl]
  exact dropWhile_ne_id (fun a ha => ne_id_of_nodup (hl ▸ hw.distinct) a (by simp [ha]))

theorem slotAt_from {ss : SlotSet} (hw : ss.WellFormed) {s x : Slot} (hs : s ∈ ss.slots)
    {t : Int} (ht : s.covers t = true) (hx : x ∈ ss.slots) (hxt : x.begin ≤ t) :
    ((ss.from? x.id).takeWhile (·.begin ≤ t)).find? (t ≤ ·.end) = some s := by
  obtain ⟨pre, post, hl⟩ := List.append_of_mem hx
  have hsort := hw.sorted
  rw [hl, List.pairwise_append] at hsort
  have hcov := Slot.covers_iff.1 ht
  have hfrom : ss.from? x.id = x :: post := hw.from?_eq hl
  have hs' : s ∈ x :: post := by
    rw [hl] at hs
    rcases List.mem_append.1 hs with hs | hs
    · have := hsort.2.2 s hs x (by simp); omega
    · exact hs
  obtain ⟨d, e, hde⟩ := List.append_of_mem hs'
  have hsortd := hsort.2.1
  rw [hde, List.pairwise_append] at hsortd
  have hd : ∀ y ∈ d, y.end < s.begin := fun y hy => hsortd.2.2 y hy s (by simp)
  rw [hfrom, hde, List.takeWhile_append_of_pos, List.takeWhile_cons_of_pos (by simpa using hcov.1),
    List.find?_append, List.find?_cons_of_pos (by simpa using hcov.2)]
  · rw [List.find?_eq_none.2]
    · rfl
    · intro y hy; have := hd y hy; simp; omega
  · intro y hy
    have := hd y hy
    have := hw.ordered y (by rw [hl]; simp [hde, hy])
    simp; omega

theorem slotAt_complete {ss : SlotSet} (hw : ss.WellFormed) {s : Slot} (hs : s ∈ ss.slots)
    {t : Int} (ht : s.covers t = true) {start : Option Int}
    (hstart : ∀ h ∈ start, ∃ x ∈ ss.slots, x.id = h ∧ x.begin ≤ t) :
    ss.slotAt t start = some s := by
  unfold slotAt
  cases start with
  | some h =>
    obtain ⟨x, hx, rfl, hxt⟩ := hstart h rfl
    exact slotAt_from hw hs ht hx hxt
  | none =>
    obtain ⟨x, rest, hl⟩ := List.exists_cons_of_ne_nil hw.nonempty
    have hx : x ∈ ss.slots := by simp [hl]
    have hxt : x.begin ≤ t := by
      have hcov := Slot.covers_iff.1 ht
      have hsort := hw.sorted
      rw [hl] at hsort hs
      rcases List.mem_cons.1 hs with rfl | hs
      · exact hcov.1
      · have := List.rel_of_pairwise_cons hsort hs
        have := hw.ordered x hx; omega
    have hfirst : ss.firstId = x.id := by simp [firstId, first?, hl]
    simpa [hfirst] using slotAt_from hw hs ht hx hxt

/-! ## Bounds of the chain -/

theorem WellFormed.first {ss : SlotSet} (hw : ss.WellFormed) :
    ∃ x ∈ ss.slots, ss.first? = some x ∧ x.begin = ss.begin := by
  obtain ⟨x, rest, hl⟩ := List.exists_cons_of_ne_nil hw.nonempty
  exact ⟨x, by simp [hl], by simp [first?, hl], by simp [SlotSet.begin, first?, hl]⟩

theorem WellFormed.last {ss : SlotSet} (hw : ss.WellFormed) :
    ∃ x ∈ ss.slots, ss.last? = some x ∧ x.end = ss.end := by
  obtain ⟨x, hx⟩ := List.getLast?_isSome.2 hw.nonempty |> Option.isSome_iff_exists.1
  exact ⟨x, List.mem_of_getLast? hx, hx, by simp [SlotSet.end, last?, hx]⟩

theorem WellFormed.within {ss : SlotSet} (hw : ss.WellFormed) {s : Slot} (hs : s ∈ ss.slots) :
    ss.begin ≤ s.begin ∧ s.end ≤ ss.end := by
  obtain ⟨x, rest, hl⟩ := List.exists_cons_of_ne_nil hw.nonempty
  obtain ⟨y, hy, hly, hye⟩ := hw.last
  have hsort := hw.sorted
  constructor
  · have hb : ss.begin = x.begin := by simp [SlotSet.begin, first?, hl]
    rw [hl] at hs hsort
    rcases List.mem_cons.1 hs with rfl | hs
    · exact Int.le_of_eq hb
    · have := List.rel_of_pairwise_cons hsort hs
      have := hw.ordered x (by simp [hl]); omega
  · rw [← hye]
    obtain ⟨pre, hpre⟩ : ∃ pre, ss.slots = pre ++ [y] := by
      refine ⟨ss.slots.dropLast, ?_⟩
      rw [List.dropLast_append_getLast? _ hly]
    rw [hpre] at hs hsort
    rcases List.mem_append.1 hs with hs | hs
    · have := (List.pairwise_append.1 hsort).2.2 s hs y (by simp)
      have := hw.ordered y hy; omega
    · simp only [List.mem_singleton] at hs; subst hs; exact Int.le_refl _

theorem exists_covers_of_isChain : ∀ {x : Slot} {rest : List Slot} {t : Int},
    (x :: rest).IsChain Abut → x.begin ≤ t → t ≤ ((x :: rest).getLast (by simp)).end →
    ∃ s ∈ x :: rest, s.covers t = true
  | x, [], t, _, hlo, hhi => ⟨x, by simp, Slot.covers_iff.2 ⟨hlo, by simpa using hhi⟩⟩
  | x, y :: rest, t, hc, hlo, hhi => by
    by_cases hx : t ≤ x.end
    · exact ⟨x, by simp, Slot.covers_iff.2 ⟨hlo, hx⟩⟩
    · have hxy : x.end + 1 = y.begin := (List.isChain_cons_cons.1 hc).1
      obtain ⟨s, hs, hst⟩ := @exists_covers_of_isChain y rest t (List.isChain_cons_cons.1 hc).2
        (by omega) (by simpa using hhi)
      exact ⟨s, List.mem_cons_of_mem _ hs, hst⟩

theorem WellFormed.exists_covers {ss : SlotSet} (hw : ss.WellFormed) {t : Int}
    (hlo : ss.begin ≤ t) (hhi : t ≤ ss.end) : ∃ s ∈ ss.slots, s.covers t = true := by
  obtain ⟨x, rest, hl⟩ := List.exists_cons_of_ne_nil hw.nonempty
  have hb : ss.begin = x.begin := by simp [SlotSet.begin, first?, hl]
  have he : ss.end = ((x :: rest).getLast (by simp)).end := by
    simp [SlotSet.end, last?, hl, List.getLast?_eq_some_getLast]
  rw [hl]
  exact exists_covers_of_isChain (hl ▸ hw.linked) (hb ▸ hlo) (he ▸ hhi)

/-! ## The consistency check -/

theorem checkChain_ok : ∀ (prev : Option Slot) (l : List Slot),
    (∀ s ∈ l, s.begin ≤ s.end ∧ Word.i64.lo ≤ s.begin ∧ s.end ≤ Word.i64.hi) → l.IsChain Abut →
    (∀ p ∈ prev, ∀ y ∈ l.head?, Abut p y) → checkChain prev l = .ok ()
  | _, [], _, _, _ => rfl
  | prev, s :: rest, hs, hc, hp => by
    have hrest := checkChain_ok (some s) rest (fun x hx => hs x (by simp [hx])) hc.tail
      (fun p hp' y hy => by
        simp only [Option.mem_def, Option.some.injEq] at hp'
        subst hp'; exact hc.rel_head? hy)
    have hs' := hs s (by simp)
    cases prev with
    | none => simp [checkChain, hrest, Int.not_lt.2 hs'.1]
    | some p =>
      have hps : p.end + 1 = s.begin := hp p rfl s rfl
      have hadd : Word.i64.add p.end 1 = .ok s.begin := by
        rw [Word.add_ok ⟨by simp [Word.i64] at hs' ⊢; omega, by simp [Word.i64] at hs' ⊢; omega⟩, hps]
      simp [checkChain, hrest, hadd, Int.not_lt.2 hs'.1]

theorem WellFormed.check {ss : SlotSet} (hw : ss.WellFormed) : ss.check = .ok () := by
  have hchain := checkChain_ok none ss.slots
    (fun s hs => ⟨hw.ordered s hs, hw.times s hs⟩) hw.linked (by simp)
  simp [SlotSet.check, hchain, hw.nonempty]

/-! ## Cutting a range -/

theorem encompassing_eq_some {ss : SlotSet} {b e : Int} {start : Option Int} {bs ls : Slot} :
    ss.encompassing b e start = some (bs, ls) ↔
      (if b < ss.begin then ss.first? else ss.slotAt b start) = some bs ∧
        (if ss.end < e then ss.last? else ss.slotAt e (some bs.id)) = some ls := by
  dsimp only [encompassing]
  generalize (if b < ss.begin then ss.first? else ss.slotAt b start) = ob
  cases ob with
  | none => simp
  | some bs' =>
    simp only [Option.map_some]
    generalize hol : (if ss.end < e then ss.last? else ss.slotAt e (some bs'.id)) = ol
    constructor
    · intro h
      cases ol with
      | none => cases h
      | some ls' =>
        cases h
        exact ⟨rfl, hol⟩
    · rintro ⟨h₁, h₂⟩
      cases h₁
      rw [hol] at h₂
      cases h₂
      rfl

theorem encompassing_sound {ss : SlotSet} (hw : ss.WellFormed) {b e : Int} {start : Option Int}
    {bs ls : Slot} (h : ss.encompassing b e start = some (bs, ls)) :
    bs ∈ ss.slots ∧ ls ∈ ss.slots ∧ bs.covers (max b ss.begin) = true ∧
      ls.covers (min e ss.end) = true := by
  obtain ⟨x, hx, hfx, hxb⟩ := hw.first
  obtain ⟨y, hy, hly, hye⟩ := hw.last
  obtain ⟨hb, hl⟩ := encompassing_eq_some.1 h
  have hbs : bs ∈ ss.slots ∧ bs.covers (max b ss.begin) = true := by
    split at hb
    · rw [hfx, Option.some.injEq] at hb
      rw [← hb]
      have := hw.ordered x hx
      exact ⟨hx, Slot.covers_iff.2 ⟨by omega, by omega⟩⟩
    · obtain ⟨hm, hc⟩ := slotAt_sound hb
      rw [Slot.covers_iff] at hc ⊢
      exact ⟨hm, by omega, by omega⟩
  refine ⟨hbs.1, ?_, hbs.2, ?_⟩ <;> split at hl
  · rw [hly, Option.some.injEq] at hl
    exact hl ▸ hy
  · exact (slotAt_sound hl).1
  · rw [hly, Option.some.injEq] at hl
    rw [← hl]
    have := hw.ordered y hy
    exact Slot.covers_iff.2 ⟨by omega, by omega⟩
  · have hc := Slot.covers_iff.1 (slotAt_sound hl).2
    exact Slot.covers_iff.2 ⟨by omega, by omega⟩

theorem encompassing_complete {ss : SlotSet} (hw : ss.WellFormed) {b e : Int}
    (hmeet : max b ss.begin ≤ min e ss.end) {start : Option Int}
    (hstart : b < ss.begin ∨ ∀ h ∈ start, ∃ x ∈ ss.slots, x.id = h ∧ x.begin ≤ b) :
    ∃ bs ls, ss.encompassing b e start = some (bs, ls) := by
  obtain ⟨x, hx, hfx, hxb⟩ := hw.first
  obtain ⟨y, hy, hly, hye⟩ := hw.last
  obtain ⟨bs, hbs, hbsc, hbsb⟩ : ∃ bs ∈ ss.slots,
      (if b < ss.begin then ss.first? else ss.slotAt b start) = some bs ∧
        bs.begin ≤ max b ss.begin := by
    by_cases hb : b < ss.begin
    · exact ⟨x, hx, by rw [if_pos hb, hfx], by omega⟩
    · obtain ⟨s, hs, hst⟩ := hw.exists_covers (by omega : ss.begin ≤ b) (by omega : b ≤ ss.end)
      have hst' := Slot.covers_iff.1 hst
      exact ⟨s, hs, by rw [if_neg hb]; exact slotAt_complete hw hs hst (hstart.resolve_left hb),
        by omega⟩
  obtain ⟨ls, hls⟩ : ∃ ls, (if ss.end < e then ss.last? else ss.slotAt e (some bs.id)) = some ls := by
    by_cases he : ss.end < e
    · exact ⟨y, by rw [if_pos he, hly]⟩
    · obtain ⟨s, hs, hst⟩ := hw.exists_covers (by omega : ss.begin ≤ e) (by omega : e ≤ ss.end)
      refine ⟨s, ?_⟩
      rw [if_neg he]
      refine slotAt_complete hw hs hst ?_
      intro h hh
      simp only [Option.mem_def, Option.some.injEq] at hh
      exact ⟨bs, hbs, hh, by omega⟩
  exact ⟨bs, ls, encompassing_eq_some.2 ⟨hbsc, hls⟩⟩

theorem splitRange_first {ss : SlotSet} (hw : ss.WellFormed) {b : Int} {bs : Slot}
    (hbs : bs ∈ ss.slots) (hbc : bs.covers (max b ss.begin) = true)
    (hroom : bs.begin < b → ss.nextId < Word.i32.hi) :
    ∃ ss₁ f, (bs.begin < b ∧ ss.splitAt bs.id b = .ok (ss₁, f) ∨
        ¬bs.begin < b ∧ ss₁ = ss ∧ f = bs.id) ∧
      ss.Recut ss₁ 1 ∧ (∃ F ∈ ss₁.slots, F.id = f ∧ F.begin = max b ss.begin ∧ F.end = bs.end) ∧
      ∀ x ∈ ss.slots, x.id ≠ bs.id → x ∈ ss₁.slots := by
  have hc := Slot.covers_iff.1 hbc
  have hin := hw.within hbs
  by_cases hlt : bs.begin < b
  · obtain ⟨ss₁, k, heq, hR, ⟨r, hr, hrk, hrb, hre⟩, -, hoth⟩ :=
      splitAt_spec hw hbs (Int.le_of_lt hlt) (by omega) (fun _ => hroom hlt)
    exact ⟨ss₁, k, .inl ⟨hlt, heq⟩, hR, ⟨r, hr, hrk, by omega, hre⟩, hoth⟩
  · exact ⟨ss, bs.id, .inr ⟨hlt, rfl, rfl⟩, (Recut.refl hw).mono (by omega),
      ⟨bs, hbs, rfl, by omega, rfl⟩, fun x hx _ => hx⟩

theorem splitRange_second {ss : SlotSet} (hw : ss.WellFormed) {X : Slot} (hX : X ∈ ss.slots)
    {e : Int} (hXe : X.begin ≤ e) (hroom : e < X.end → ss.nextId < Word.i32.hi) :
    ∃ ss₂, (e < X.end ∧ Word.i64.add e 1 = .ok (e + 1) ∧
        (∃ k, ss.splitAt X.id (e + 1) = .ok (ss₂, k)) ∨ ¬e < X.end ∧ ss₂ = ss) ∧
      ss.Recut ss₂ 1 ∧
      (∃ L ∈ ss₂.slots, L.id = X.id ∧ L.begin = X.begin ∧ L.end = min e X.end) ∧
      ∀ x ∈ ss.slots, x.id ≠ X.id → x ∈ ss₂.slots := by
  by_cases hlt : e < X.end
  · have ht := hw.times X hX
    have hadd : Word.i64.add e 1 = .ok (e + 1) :=
      Word.add_ok ⟨by simp only [Word.i64] at ht ⊢; omega, by simp only [Word.i64] at ht ⊢; omega⟩
    obtain ⟨ss₂, k, heq, hR, -, ⟨L, hL, hLid, hLb, hLe⟩, hoth⟩ :=
      splitAt_spec hw hX (by omega : X.begin ≤ e + 1) (by omega : e + 1 ≤ X.end) (fun _ => hroom hlt)
    exact ⟨ss₂, .inl ⟨hlt, hadd, k, heq⟩, hR, ⟨L, hL, hLid, hLb, by omega⟩, hoth⟩
  · exact ⟨ss, .inr ⟨hlt, rfl⟩, (Recut.refl hw).mono (by omega), ⟨X, hX, rfl, rfl, by omega⟩,
      fun x hx _ => hx⟩

theorem splitRange_lastSlot {ss ss₁ : SlotSet} (hw : ss.WellFormed) {b e f : Int} {bs ls F : Slot}
    (hbs : bs ∈ ss.slots) (hls : ls ∈ ss.slots) (hbc : bs.covers (max b ss.begin) = true)
    (hlc : ls.covers (min e ss.end) = true) (hbe : b ≤ e) (hF : F ∈ ss₁.slots) (hFid : F.id = f)
    (hFb : F.begin = max b ss.begin) (hFe : F.end = bs.end)
    (hoth : ∀ x ∈ ss.slots, x.id ≠ bs.id → x ∈ ss₁.slots) :
    ∃ X ∈ ss₁.slots, X.id = (if bs.id = ls.id then f else ls.id) ∧ X.end = ls.end ∧
      X.begin ≤ min e ss.end := by
  have hbc' := Slot.covers_iff.1 hbc
  have hlc' := Slot.covers_iff.1 hlc
  have hbin := hw.within hbs
  have hlin := hw.within hls
  by_cases hsame : bs.id = ls.id
  · have hbl : bs = ls := List.inj_on_of_nodup_map hw.distinct hbs hls hsame
    subst hbl
    exact ⟨F, hF, by simp [hFid], hFe, by omega⟩
  · exact ⟨ls, hoth ls hls (Ne.symm hsame), by simp [hsame], rfl, by omega⟩

theorem splitRange_spec_of_room {ss : SlotSet} (hw : ss.WellFormed) {b e : Int} (hbe : b ≤ e)
    {start : Option Int} {bs ls : Slot} (henc : ss.encompassing b e start = some (bs, ls))
    (hroom₁ : bs.begin < b → ss.nextId < Word.i32.hi)
    (hroom₂ : e < ls.end → ss.nextId + (if bs.begin < b then 1 else 0) < Word.i32.hi) :
    ∃ ss' f l, ss.splitRange b e start = .ok (some (ss', f, l)) ∧ ss.Recut ss' 2 ∧
      ∃ F ∈ ss'.slots, ∃ L ∈ ss'.slots, F.id = f ∧ L.id = l ∧ F.begin = max b ss.begin ∧
        L.end = min e ss.end := by
  obtain ⟨hbs, hls, hbc, hlc⟩ := encompassing_sound hw henc
  have hbc' := Slot.covers_iff.1 hbc
  have hlc' := Slot.covers_iff.1 hlc
  have hlin := hw.within hls
  obtain ⟨ss₁, f, h₁, hR₁, ⟨F, hF, hFid, hFb, hFe⟩, hoth₁⟩ := splitRange_first hw hbs hbc hroom₁
  obtain ⟨X, hX, hXid, hXe, hXb⟩ :=
    splitRange_lastSlot hw hbs hls hbc hlc hbe hF hFid hFb hFe hoth₁
  -- the second cut takes the id after the first one's
  have hroom₁' : e < X.end → ss₁.nextId < Word.i32.hi := by
    intro hlt₂
    have h₂' := hroom₂ (hXe ▸ hlt₂)
    rcases h₁ with ⟨hlt, -⟩ | ⟨hlt, rfl, -⟩
    · rw [if_pos hlt] at h₂'
      have := hR₁.nextId_le
      omega
    · rw [if_neg hlt] at h₂'
      omega
  obtain ⟨ss₂, h₂, hR₂, ⟨L, hL, hLid, hLb, hLe⟩, hoth₂⟩ :=
    splitRange_second hR₁.wellFormed hX (by omega : X.begin ≤ e) hroom₁'
  refine ⟨ss₂, f, if bs.id = ls.id then f else ls.id, ?_, (hR₁.trans hR₂).mono (by omega), ?_⟩
  · have hchk := hR₂.wellFormed.check
    rw [hXid, hXe] at h₂
    unfold splitRange
    rw [henc]
    dsimp only
    have hlast : ∀ ss₁' : SlotSet, ss₁' = ss₁ →
        (if e < ls.end then do
          let after ← Word.i64.add e 1
          let x ← ss₁'.splitAt (if bs.id = ls.id then f else ls.id) after
          let ss' ← pure x.fst
          ss'.check
          pure (some (ss', f, if bs.id = ls.id then f else ls.id))
        else do
          let ss' ← pure ss₁'
          ss'.check
          pure (some (ss', f, if bs.id = ls.id then f else ls.id))) =
        .ok (some (ss₂, f, if bs.id = ls.id then f else ls.id)) := by
      rintro _ rfl
      rcases h₂ with ⟨hlt₂, hadd, k, h₂⟩ | ⟨hlt₂, rfl⟩
      · rw [if_pos hlt₂, hadd, except_ok_bind, h₂, except_ok_bind]
        simp [hchk]
      · rw [if_neg hlt₂]
        simp [hchk]
    rcases h₁ with ⟨hlt, h₁⟩ | ⟨hlt, rfl, rfl⟩
    · rw [if_pos hlt, h₁, except_ok_bind]
      exact hlast _ rfl
    · rw [if_neg hlt]
      exact hlast _ rfl
  · refine ⟨if F.id = X.id then L else F, ?_, L, hL, ?_, hLid.trans hXid, ?_, ?_⟩
    · split
      · exact hL
      · exact hoth₂ F hF ‹_›
    · split
      · next h => exact hLid.trans (h.symm.trans hFid)
      · exact hFid
    · split
      · next h =>
        have hFX : F = X := List.inj_on_of_nodup_map hR₁.wellFormed.distinct hF hX h
        rw [hLb, ← hFX, hFb]
      · exact hFb
    · rw [hLe, hXe]; omega

/-- Cutting a range whose two slots were found: slot bounds fall at the clipped `begin` and
right after the clipped `end`, with the first and last slot ids of the range returned. -/
theorem splitRange_spec {ss : SlotSet} (hw : ss.WellFormed) {b e : Int} (hbe : b ≤ e)
    {start : Option Int} {bs ls : Slot} (henc : ss.encompassing b e start = some (bs, ls))
    (hroom : ss.nextId + 2 ≤ Word.i32.hi) :
    ∃ ss' f l, ss.splitRange b e start = .ok (some (ss', f, l)) ∧ ss.Recut ss' 2 ∧
      ∃ F ∈ ss'.slots, ∃ L ∈ ss'.slots, F.id = f ∧ L.id = l ∧ F.begin = max b ss.begin ∧
        L.end = min e ss.end :=
  splitRange_spec_of_room hw hbe henc (fun _ => by omega) fun _ => by split <;> omega

end SlotSet

end ClusterScheduler
