import ClusterScheduler.Proofs.WindowWithin
import ClusterScheduler.Proofs.SlotUpdate

/-!
# The window search against a naive search

`findWindow` moves a two-pointer window over the chain and keeps the sliding intersection of
what its slots offer, each slot entering and leaving it once. It is compared here with a naive
search, `scan`, that tries each candidate start in turn and recomputes from scratch what every
slot meeting the window offers (`offeredOver`). The first candidate is `startAfter`, or the begin
of the slot the search starts from when that is later; the others are the begins of the slots
after it (`candidates`).

The two searches are the same computation, notices and faults included, for any chooser
(`findWindow_eq_scan`). The loop invariant is `Reaches`: the window's slots run from the left
slot to the right one, and all but the last end before the window does, so that extending the
window to a later end takes exactly the slots that meet it. With a pure chooser and no 64-bit
overflow, the naive search is the plain `naiveWindow`.
-/

namespace ClusterScheduler

namespace Logged

theorem bind_congr_ok {α β : Type} {x : Logged α} {f g : α → Logged β}
    (h : ∀ a, x.result = .ok a → f a = g a) : x >>= f = x >>= g := by
  obtain ⟨notices, result⟩ := x
  cases result with
  | error e => rfl
  | ok a =>
    show (⟨notices ++ (f a).notices, (f a).result⟩ : Logged β) = ⟨notices ++ (g a).notices, (g a).result⟩
    rw [h a rfl]

end Logged

namespace SlotSet

open IdSet

/-! ## The naive search -/

def offeredOver (ss : SlotSet) (available : Slot → IdSet) (b e : Int) : IdSet :=
  interAll ((ss.slots.filter fun s => decide (s.begin ≤ e ∧ b ≤ s.end)).map available)

def idAt (ss : SlotSet) (t : Int) : Int := ((ss.slots.find? (·.covers t)).map Slot.id).getD 0

def windowOf (ss : SlotSet) (b e : Int) (r : IdSet) : Window := ⟨b, e, ss.idAt b, ss.idAt e, r⟩

def scanStep (ss : SlotSet) (duration : Int) (available : Slot → IdSet)
    (needed : IdSet → Logged (Option IdSet)) (b : Int) (k : Logged (Option Window)) :
    Logged (Option Window) := do
  let e ← liftM (do let e ← Word.i64.add b duration; Word.i64.sub e 1 : Except Fault Int)
  if ss.end < e then pure none
  else
    let free := ss.offeredOver available b e
    let found ← if free.isEmpty then pure none else needed free
    found.elim k fun r => pure (some (ss.windowOf b e r))

def scan (ss : SlotSet) (duration : Int) (available : Slot → IdSet)
    (needed : IdSet → Logged (Option IdSet)) (starts : List Int) : Logged (Option Window) :=
  starts.foldr (ss.scanStep duration available needed) (pure none)

/-- The candidate starts from a slot: `startAfter` or the slot's begin, whichever is later, then
the begin of each later slot of the chain. -/
def candidates (ss : SlotSet) (startAfter : Int) (l : Slot) : List Int :=
  max startAfter l.begin :: ((ss.from? l.id).drop 1).map Slot.begin

/-- The slot the search starts from: the hinted slot, or the first one, when `startAfter` is not
after its begin, and otherwise the slot from there on that holds `startAfter`. -/
def searchStart (ss : SlotSet) (startAfter : Int) (hint : Option Int) : Option Slot :=
  ((hint.bind ss.slot?).or ss.first?).bind fun h =>
    if startAfter ≤ h.begin then some h else (ss.from? h.id).find? (·.covers startAfter)

/-- The window a candidate start gives with a pure chooser `f`: when it ends within the set and
its slots offer something, the window of what `f` takes. -/
def windowAt (ss : SlotSet) (duration : Int) (available : Slot → IdSet)
    (f : IdSet → Option IdSet) (b : Int) : Option Window :=
  let e := b + duration - 1
  let free := ss.offeredOver available b e
  if e ≤ ss.end ∧ free.isEmpty = false then (f free).map (ss.windowOf b e) else none

def naiveWindow (ss : SlotSet) (startAfter duration : Int) (hint : Option Int)
    (available : Slot → IdSet) (f : IdSet → Option IdSet) : Option Window :=
  if duration ≤ 0 then none
  else (ss.searchStart startAfter hint).bind fun l =>
    (ss.candidates startAfter l).findSome? (ss.windowAt duration available f)

@[simp] theorem scan_nil (ss : SlotSet) (duration : Int) (available : Slot → IdSet)
    (needed : IdSet → Logged (Option IdSet)) : ss.scan duration available needed [] = pure none :=
  rfl

theorem scan_cons (ss : SlotSet) (duration : Int) (available : Slot → IdSet)
    (needed : IdSet → Logged (Option IdSet)) (b : Int) (starts : List Int) :
    ss.scan duration available needed (b :: starts) =
      ss.scanStep duration available needed b (ss.scan duration available needed starts) :=
  rfl

theorem windowEnd_eq {b d e : Int}
    (h : (liftM (do let e ← Word.i64.add b d; Word.i64.sub e 1 : Except Fault Int) :
      Logged Int).result = .ok e) : e = b + d - 1 := by
  rw [Logged.result_lift] at h
  obtain ⟨e₁, he₁, h⟩ := except_bind_eq_ok h
  obtain ⟨rfl, -⟩ := Word.eq_of_add_ok he₁
  exact (Word.eq_of_sub_ok h).1

/-! ## The window's slots -/

section Search

variable {ss : SlotSet} {available : Slot → IdSet} {startAfter duration : Int}
  {needed : IdSet → Logged (Option IdSet)}

/-- The window's slots reach no further than an end at `e` needs: the chain from the left slot
is `init ++ right :: ahead`, the intersection holds what the slots of `init ++ [right]` offer,
the slots of `init` end before `e` and `right` begins no later. -/
def Reaches (available : Slot → IdSet) (fromLeft : List Slot) (right : Slot) (ahead : List Slot)
    (w : Sliding) (e : Int) : Prop :=
  ∃ init, fromLeft = init ++ right :: ahead ∧ w.Represents ((init ++ [right]).map available) ∧
    (∀ s ∈ init, s.end < e) ∧ right.begin ≤ e

theorem Reaches.mono {fromLeft ahead : List Slot} {right : Slot} {w : Sliding} {e e' : Int}
    (h : Reaches available fromLeft right ahead w e) (he : e ≤ e') :
    Reaches available fromLeft right ahead w e' := by
  obtain ⟨init, hl, hitems, hinit, hright⟩ := h
  refine ⟨init, hl, hitems, fun s hs => ?_, by omega⟩
  have := hinit s hs
  omega

theorem extendTo_reaches {e : Int} {fromLeft : List Slot} (hc : fromLeft.IsChain Abut) :
    ∀ (ahead : List Slot) (right : Slot) (w : Sliding) {right' : Slot} {ahead' : List Slot}
      {w' : Sliding}, Reaches available fromLeft right ahead w e →
      extendTo available e right ahead w = some (right', ahead', w') →
      Reaches available fromLeft right' ahead' w' e ∧ e ≤ right'.end
  | [], right, w, right', ahead', w', hR, h => by
    unfold extendTo at h
    split at h
    · cases h
    · cases h
      exact ⟨hR, by omega⟩
  | r :: more, right, w, right', ahead', w', hR, h => by
    unfold extendTo at h
    split at h
    · -- the next slot joins the window; it begins right after `right` ends
      rename_i hlt
      obtain ⟨init, hl, hitems, hinit, hright⟩ := hR
      have habut : right.end + 1 = r.begin := by
        rw [hl, List.isChain_split, List.isChain_cons_cons] at hc
        exact hc.2.1
      refine extendTo_reaches hc more r _
        ⟨init ++ [right], by simp [hl], by simpa using hitems.push (available r), fun s hs => ?_,
          by omega⟩ h
      rcases List.mem_append.1 hs with hs | hs
      · exact hinit s hs
      · rw [List.mem_singleton] at hs
        subst hs
        exact hlt
    · cases h
      exact ⟨hR, by omega⟩

theorem extendTo_none {e : Int} : ∀ (ahead : List Slot) (right : Slot) (w : Sliding),
    extendTo available e right ahead w = none → ∀ s ∈ right :: ahead, s.end < e
  | [], right, w, h => by
    unfold extendTo at h
    split at h
    · rename_i hlt
      intro s hs
      rw [List.mem_singleton] at hs
      subst hs
      exact hlt
    · cases h
  | r :: more, right, w, h => by
    unfold extendTo at h
    split at h
    · rename_i hlt
      intro s hs
      rcases List.mem_cons.1 hs with rfl | hs
      · exact hlt
      · exact extendTo_none more r _ h s hs
    · cases h

theorem filter_meets (hw : ss.WellFormed) {pre init tl ahead : List Slot} {left right : Slot}
    {b e : Int} (hl : ss.slots = pre ++ (init ++ right :: ahead))
    (hhead : init ++ [right] = left :: tl) (hb : left.begin ≤ b) (hbe : b ≤ left.end)
    (hinit : ∀ s ∈ init, s.end < e) (hre : right.begin ≤ e) (her : e ≤ right.end) :
    ss.slots.filter (fun s => decide (s.begin ≤ e ∧ b ≤ s.end)) = init ++ [right] := by
  have hseg : init ++ right :: ahead = (left :: tl) ++ ahead := by
    rw [← hhead, List.append_assoc, List.singleton_append]
  have hmem : ∀ s, s ∈ left :: tl → s ∈ ss.slots := fun s hs => by
    rw [hl, hseg]
    exact List.mem_append_right _ (List.mem_append_left _ hs)
  have hsort := hw.sorted
  rw [hl, hseg, List.pairwise_append, List.pairwise_append] at hsort
  obtain ⟨-, ⟨hseg_sorted, -, hseg_ahead⟩, hpre⟩ := hsort
  rw [hl, hseg, List.filter_append, List.filter_append, hhead]
  have hnil₁ : pre.filter (fun s => decide (s.begin ≤ e ∧ b ≤ s.end)) = [] := by
    rw [List.filter_eq_nil_iff]
    intro s hs hmeet
    have := hpre s hs left (List.mem_append_left _ List.mem_cons_self)
    simp only [decide_eq_true_eq] at hmeet
    omega
  have hnil₂ : ahead.filter (fun s => decide (s.begin ≤ e ∧ b ≤ s.end)) = [] := by
    rw [List.filter_eq_nil_iff]
    intro s hs hmeet
    have hright : right ∈ left :: tl := by rw [← hhead]; simp
    have := hseg_ahead right hright s hs
    simp only [decide_eq_true_eq] at hmeet
    omega
  have hall : (left :: tl).filter (fun s => decide (s.begin ≤ e ∧ b ≤ s.end)) = left :: tl := by
    rw [List.filter_eq_self]
    intro s hs
    simp only [decide_eq_true_eq]
    have hord := hw.ordered s (hmem s hs)
    constructor
    · have hs' : s ∈ init ++ [right] := by rw [hhead]; exact hs
      rcases List.mem_append.1 hs' with hs' | hs'
      · have := hinit s hs'
        omega
      · rw [List.mem_singleton] at hs'
        subst hs'
        exact hre
    · rcases List.mem_cons.1 hs with rfl | hs
      · exact hbe
      · have := (List.pairwise_cons.1 hseg_sorted).1 s hs
        omega
  rw [hnil₁, hnil₂, hall, List.nil_append, List.append_nil]

theorem last_of_suffix (hw : ss.WellFormed) {pre suffix : List Slot}
    (hl : ss.slots = pre ++ suffix) (hne : suffix ≠ []) : ∃ x ∈ suffix, x.end = ss.end := by
  obtain ⟨x, -, hlast, hxend⟩ := hw.last
  obtain ⟨y, hy⟩ := Option.isSome_iff_exists.1 (List.getLast?_isSome.2 hne)
  refine ⟨x, ?_, hxend⟩
  rw [last?, hl, List.getLast?_append, hy, Option.some_or] at hlast
  cases hlast
  exact List.mem_of_getLast? hy

theorem Reaches.restart {left next right : Slot} {more ahead : List Slot} {w : Sliding}
    {e e' : Int} (hnodup : ((left :: next :: more).map Slot.id).Nodup)
    (hR : Reaches available (left :: next :: more) right ahead w e) (hid : left.id = right.id)
    (he' : next.begin ≤ e') :
    Reaches available (next :: more) next (ahead.drop 1) (w.pop.push (available next)) e' := by
  obtain ⟨init, hl, hitems, -, -⟩ := hR
  cases init with
  | nil =>
    simp only [List.nil_append, List.cons.injEq] at hl
    obtain ⟨rfl, rfl⟩ := hl
    exact ⟨[], by simp, by simpa using hitems.pop.push (available next), by simp, he'⟩
  | cons a init' =>
    -- `right` would come after `left` in the chain, with the same id
    simp only [List.cons_append, List.cons.injEq] at hl
    obtain ⟨rfl, hl⟩ := hl
    have hr : right ∈ next :: more := by rw [hl]; simp
    rw [List.map_cons, List.nodup_cons] at hnodup
    exact absurd (List.mem_map.2 ⟨right, hr, hid.symm⟩) hnodup.1

theorem Reaches.drop_left {left next right : Slot} {more ahead : List Slot} {w : Sliding}
    {e e' : Int} (hR : Reaches available (left :: next :: more) right ahead w e)
    (hid : left.id ≠ right.id) (he : e ≤ e') :
    Reaches available (next :: more) right ahead w.pop e' := by
  obtain ⟨init, hl, hitems, hinit, hright⟩ := hR
  cases init with
  | nil =>
    simp only [List.nil_append, List.cons.injEq] at hl
    exact absurd (congrArg Slot.id hl.1) hid
  | cons a init' =>
    simp only [List.cons_append, List.cons.injEq] at hl
    obtain ⟨rfl, hl⟩ := hl
    refine ⟨init', hl, by simpa using hitems.pop, fun s hs => ?_, by omega⟩
    have := hinit s (List.mem_cons_of_mem _ hs)
    omega

/-! ## The search and the naive search -/

theorem slide_eq_scan (hw : ss.WellFormed) (hdur : 0 < duration) (left : Slot)
    (rest pre : List Slot) (right : Slot) (ahead : List Slot) (w : Sliding)
    (hl : ss.slots = pre ++ left :: rest) (hafter : startAfter ≤ left.end)
    (hR : Reaches available (left :: rest) right ahead w (max left.begin startAfter + duration - 1)) :
    slide ss.end startAfter duration available needed (left :: rest) right ahead w =
      ss.scan duration available needed (max startAfter left.begin :: rest.map Slot.begin) := by
  have hleft : left ∈ ss.slots := by rw [hl]; simp
  have hord := hw.ordered left hleft
  rw [scan_cons]
  unfold slide scanStep
  dsimp only
  rw [Int.max_comm startAfter left.begin]
  apply Logged.bind_congr_ok
  intro e he
  obtain rfl := windowEnd_eq he
  by_cases hend : ss.end < max left.begin startAfter + duration - 1
  · rw [if_pos hend, if_pos hend]
  rw [if_neg hend, if_neg hend]
  have hchain : (left :: rest).IsChain Abut := by
    have hc := hw.linked
    rw [hl] at hc
    exact hc.right_of_append
  -- the window's end lies within the set, so the window reaches it
  obtain ⟨⟨right', ahead', w'⟩, hext⟩ :
      ∃ t, extendTo available (max left.begin startAfter + duration - 1) right ahead w = some t := by
    cases hx : extendTo available (max left.begin startAfter + duration - 1) right ahead w with
    | some t => exact ⟨t, rfl⟩
    | none =>
      obtain ⟨init, hfrom, -, -, -⟩ := hR
      obtain ⟨x, hx', hxend⟩ := last_of_suffix hw
        (by rw [hl, hfrom, List.append_assoc] : ss.slots = (pre ++ init) ++ right :: ahead)
        (List.cons_ne_nil right ahead)
      have := extendTo_none ahead right w hx x hx'
      omega
  rw [hext]
  dsimp only
  obtain ⟨hReach, hcover⟩ := extendTo_reaches hchain ahead right w hR hext
  obtain ⟨init, hfrom, hitems, hinit, hright⟩ := id hReach
  obtain ⟨tl, hhead⟩ : ∃ tl, init ++ [right'] = left :: tl := by
    cases init with
    | nil =>
      simp only [List.nil_append, List.cons.injEq] at hfrom
      exact ⟨[], by rw [hfrom.1]; rfl⟩
    | cons a init' =>
      simp only [List.cons_append, List.cons.injEq] at hfrom
      exact ⟨init' ++ [right'], by rw [hfrom.1]; rfl⟩
  have hslots : ss.slots = pre ++ (init ++ right' :: ahead') := by rw [hl, hfrom]
  have hfree : w'.meet = ss.offeredOver available (max left.begin startAfter)
      (max left.begin startAfter + duration - 1) := by
    unfold offeredOver
    rw [filter_meets hw hslots hhead (Int.le_max_left _ _) (Int.max_le.2 ⟨hord, hafter⟩) hinit hright hcover]
    exact hitems.meet_eq
  have hright' : right' ∈ ss.slots := by rw [hslots]; simp
  have hbeg : ss.idAt (max left.begin startAfter) = left.id := by
    rw [idAt, find?_covers hw.sorted hleft
      (Slot.covers_iff.2 ⟨Int.le_max_left _ _, Int.max_le.2 ⟨hord, hafter⟩⟩)]
    rfl
  have hend' : ss.idAt (max left.begin startAfter + duration - 1) = right'.id := by
    rw [idAt, find?_covers hw.sorted hright' (Slot.covers_iff.2 ⟨hright, hcover⟩)]
    rfl
  rw [hfree]
  split
  all_goals
    apply Logged.bind_congr_ok
    intro found _
    cases found with
    | some r => simp [windowOf, hbeg, hend']
    | none =>
      cases rest with
      | nil => rfl
      | cons next more =>
        -- the next candidate is the next slot's begin, after the window's start
        have hnext : next ∈ ss.slots := by rw [hl]; simp
        have habut : left.end + 1 = next.begin := by
          rw [List.isChain_cons_cons] at hchain
          exact hchain.1
        have hb : max next.begin startAfter = next.begin := Int.max_eq_left (by omega)
        have hnodup : ((left :: next :: more).map Slot.id).Nodup := by
          have hd := hw.distinct
          rw [hl, List.map_append] at hd
          exact (List.nodup_append.1 hd).2.1
        have hl' : ss.slots = (pre ++ [left]) ++ next :: more := by rw [hl]; simp
        have hafter' : startAfter ≤ next.end := by
          have := hw.ordered next hnext
          omega
        dsimp only
        by_cases hid : left.id = right'.id
        · rw [if_pos hid, slide_eq_scan hw hdur next more (pre ++ [left]) next _ _ hl' hafter'
            (Reaches.restart hnodup hReach hid (by rw [hb]; omega)), Int.max_comm, hb]
          rfl
        · rw [if_neg hid, slide_eq_scan hw hdur next more (pre ++ [left]) right' _ _ hl' hafter'
            (Reaches.drop_left hReach hid (by rw [hb]; omega)), Int.max_comm, hb]
          rfl
termination_by rest.length

theorem find?_takeWhile {l : List Slot} (hsort : l.Pairwise fun a b => a.end < b.begin)
    (hord : ∀ s ∈ l, s.begin ≤ s.end) (t : Int) :
    (l.takeWhile (·.begin ≤ t)).find? (t ≤ ·.end) = l.find? (·.covers t) := by
  induction l with
  | nil => rfl
  | cons s rest ih =>
    have hrest := ih (List.pairwise_cons.1 hsort).2 fun x hx => hord x (List.mem_cons_of_mem _ hx)
    by_cases hb : s.begin ≤ t
    · rw [List.takeWhile_cons_of_pos (by simpa using hb)]
      by_cases he : t ≤ s.end
      · rw [List.find?_cons_of_pos (by simpa using he),
          List.find?_cons_of_pos (p := fun x : Slot => x.covers t) (Slot.covers_iff.2 ⟨hb, he⟩)]
      · rw [List.find?_cons_of_neg (by simpa using he),
          List.find?_cons_of_neg (p := fun x : Slot => x.covers t) (by rw [Slot.covers_iff]; omega), hrest]
    · -- every later slot begins after `s` does, so after `t`
      rw [List.takeWhile_cons_of_neg (by simpa using hb), List.find?_nil, eq_comm,
        List.find?_eq_none]
      intro x hx
      rw [Slot.covers_iff]
      rcases List.mem_cons.1 hx with rfl | hx
      · omega
      · have := (List.pairwise_cons.1 hsort).1 x hx
        have := hord s List.mem_cons_self
        omega

theorem slotAt_some (hw : ss.WellFormed) (t id : Int) :
    ss.slotAt t (some id) = (ss.from? id).find? (·.covers t) := by
  have hsuf : ss.from? id <:+ ss.slots := List.dropWhile_suffix _
  unfold slotAt
  exact find?_takeWhile (hw.sorted.sublist hsuf.sublist) (fun s hs => hw.ordered s (hsuf.subset hs)) t

theorem searchStart_mem (hw : ss.WellFormed) {hint : Option Int} {l : Slot}
    (h : ss.searchStart startAfter hint = some l) : l ∈ ss.slots ∧ startAfter ≤ l.end := by
  unfold searchStart at h
  obtain ⟨s, hs, hl⟩ := Option.bind_eq_some_iff.1 h
  have hsmem : s ∈ ss.slots := by
    cases hb : hint.bind ss.slot? with
    | some x =>
      rw [hb, Option.some_or] at hs
      cases hs
      obtain ⟨i, -, hi⟩ := Option.bind_eq_some_iff.1 hb
      exact (mem_of_slot? hi).1
    | none =>
      rw [hb, Option.none_or] at hs
      simp only [first?] at hs
      exact List.mem_of_mem_head? hs
  split at hl
  · rename_i hle
    cases hl
    exact ⟨hsmem, Int.le_trans hle (hw.ordered _ hsmem)⟩
  · have hcov := List.find?_some hl
    exact ⟨(List.dropWhile_suffix _).subset (List.mem_of_find?_eq_some hl),
      (Slot.covers_iff.1 hcov).2⟩

theorem findWindow_eq_scan (hw : ss.WellFormed) (hint : Option Int) :
    ss.findWindow startAfter duration hint available needed =
      if duration ≤ 0 then pure none
      else (ss.searchStart startAfter hint).elim (pure none) fun l =>
        ss.scan duration available needed (ss.candidates startAfter l) := by
  unfold findWindow
  by_cases hdur : duration ≤ 0
  · rw [if_pos hdur, if_pos hdur]
  rw [if_neg hdur, if_neg hdur]
  dsimp only
  split
  · -- some slot always starts the search: the hinted one, or the first
    rename_i heq
    split at heq
    · cases heq
    · obtain ⟨x, -, hx, -⟩ := hw.first
      rw [hx] at heq
      cases heq
  · rename_i h heq
    have hstart : ss.searchStart startAfter hint =
        if startAfter ≤ h.begin then some h else (ss.from? h.id).find? (·.covers startAfter) := by
      have hor : (hint.bind ss.slot?).or ss.first? = some h := by
        split at heq
        · rename_i s hs
          rw [hs, Option.some_or, heq]
        · rename_i hs
          rw [hs, Option.none_or, heq]
      rw [searchStart, hor, Option.bind_some]
    rw [hstart, slotAt_some hw]
    split
    · rename_i heq'
      rw [heq']
      rfl
    · rename_i l heq'
      rw [heq', Option.elim_some]
      obtain ⟨hl, hafter⟩ := searchStart_mem hw (hstart.trans heq')
      obtain ⟨pre, post, hsplit⟩ := List.append_of_mem hl
      rw [candidates, hw.from?_eq hsplit]
      exact slide_eq_scan hw (by omega) l post pre l post _ hsplit hafter
        ⟨[], rfl, by simpa using Sliding.represents_empty.push (available l), by simp,
          by have := Int.le_max_left l.begin startAfter; omega⟩

theorem windowAt_past_end {f : IdSet → Option IdSet} {b : Int} (h : ss.end < b + duration - 1) :
    ss.windowAt duration available f b = none := by
  unfold windowAt
  dsimp only
  rw [if_neg (by omega)]

theorem scanStep_pure (f : IdSet → Option IdSet) (k : Logged (Option Window)) {b : Int}
    (hdur : 0 < duration) (hb : Word.i64.lo ≤ b ∧ b + duration ≤ Word.i64.hi) :
    (ss.scanStep duration available (fun free => pure (f free)) b k).result =
      if ss.end < b + duration - 1 then .ok none
      else (ss.windowAt duration available f b).elim k.result fun w => .ok (some w) := by
  have he : (do let e ← Word.i64.add b duration; Word.i64.sub e 1 : Except Fault Int) =
      .ok (b + duration - 1) := by
    rw [Word.add_ok ⟨by omega, hb.2⟩, except_ok_bind, Word.sub_ok ⟨by omega, by omega⟩]
  unfold scanStep windowAt
  rw [Logged.result_bind_of_ok (by rw [Logged.result_lift, he])]
  dsimp only
  by_cases hend : ss.end < b + duration - 1
  · rw [if_pos hend, if_pos hend]
    rfl
  rw [if_neg hend, if_neg hend]
  by_cases hempty : (ss.offeredOver available b (b + duration - 1)).isEmpty = true
  · rw [if_pos hempty, if_neg (by rw [hempty]; simp)]
    rfl
  · rw [if_neg hempty, if_pos ⟨by omega, by simpa using hempty⟩]
    cases f (ss.offeredOver available b (b + duration - 1)) <;> rfl

theorem scan_pure (f : IdSet → Option IdSet) (hdur : 0 < duration) :
    ∀ starts : List Int, starts.Pairwise (· ≤ ·) →
      (∀ b ∈ starts, Word.i64.lo ≤ b ∧ b + duration ≤ Word.i64.hi) →
      (ss.scan duration available (fun free => pure (f free)) starts).result =
        .ok (starts.findSome? (ss.windowAt duration available f))
  | [], _, _ => rfl
  | b :: starts, hsorted, hfit => by
    rw [scan_cons, scanStep_pure f _ hdur (hfit b List.mem_cons_self)]
    by_cases hend : ss.end < b + duration - 1
    · -- the later candidates start later, so their windows end past the set too
      rw [if_pos hend, List.findSome?_eq_none_iff.2]
      intro b' hb'
      apply windowAt_past_end
      rcases List.mem_cons.1 hb' with rfl | hb'
      · exact hend
      · have := List.rel_of_pairwise_cons hsorted hb'
        omega
    · rw [if_neg hend, scan_pure f hdur starts hsorted.of_cons
        (fun b' hb' => hfit b' (List.mem_cons_of_mem _ hb')), List.findSome?_cons]
      cases ss.windowAt duration available f b <;> rfl

theorem candidates_sorted (hw : ss.WellFormed) {pre post : List Slot} {l : Slot}
    (hsplit : ss.slots = pre ++ l :: post) (hafter : startAfter ≤ l.end) :
    (ss.candidates startAfter l).Pairwise (· < ·) := by
  have hl : l ∈ ss.slots := by rw [hsplit]; simp
  have hmem : ∀ s ∈ post, s ∈ ss.slots := fun s hs => by rw [hsplit]; simp [hs]
  have hsort := hw.sorted
  rw [hsplit, List.pairwise_append, List.pairwise_cons] at hsort
  obtain ⟨-, ⟨hafter_l, hpost⟩, -⟩ := hsort
  rw [candidates, hw.from?_eq hsplit, List.drop_one, List.tail_cons, List.pairwise_cons,
    List.pairwise_map]
  refine ⟨fun b hb => ?_, hpost.imp_of_mem fun ha _ h => ?_⟩
  · obtain ⟨s, hs, rfl⟩ := List.mem_map.1 hb
    have := hafter_l s hs
    have := Int.max_le.2 ⟨hafter, hw.ordered l hl⟩
    omega
  · have := hw.ordered _ (hmem _ ha)
    omega

theorem candidates_within (hw : ss.WellFormed) {pre post : List Slot} {l : Slot}
    (hsplit : ss.slots = pre ++ l :: post) (hafter : startAfter ≤ l.end) :
    ∀ b ∈ ss.candidates startAfter l, Word.i64.lo ≤ b ∧ b ≤ ss.end := by
  have hl : l ∈ ss.slots := by rw [hsplit]; simp
  rw [candidates, hw.from?_eq hsplit]
  intro b hb
  rcases List.mem_cons.1 hb with rfl | hb
  · have := hw.times l hl
    have := (hw.within hl).2
    have := Int.le_max_right startAfter l.begin
    have := Int.max_le.2 ⟨hafter, hw.ordered l hl⟩
    omega
  · obtain ⟨s, hs, rfl⟩ := List.mem_map.1 hb
    have hs' : s ∈ ss.slots := by rw [hsplit]; simp [List.mem_of_mem_drop hs]
    have := hw.times s hs'
    have := (hw.within hs').2
    have := hw.ordered s hs'
    omega

/-- With a pure chooser, and room in 64 bits for a window's end past the set's end, the window
search gives the window of the first candidate start whose window ends within the set, whose
slots offer something, and from which the chooser takes resources. -/
theorem findWindow_eq_naiveWindow (hw : ss.WellFormed) (hroom : ss.end + duration ≤ Word.i64.hi)
    (hint : Option Int) (f : IdSet → Option IdSet) :
    (ss.findWindow startAfter duration hint available fun free => pure (f free)).result =
      .ok (ss.naiveWindow startAfter duration hint available f) := by
  rw [findWindow_eq_scan hw, naiveWindow]
  by_cases hdur : duration ≤ 0
  · rw [if_pos hdur, if_pos hdur]
    rfl
  rw [if_neg hdur, if_neg hdur]
  cases hstart : ss.searchStart startAfter hint with
  | none => rfl
  | some l =>
    obtain ⟨hl, hafter⟩ := searchStart_mem hw hstart
    obtain ⟨pre, post, hsplit⟩ := List.append_of_mem hl
    rw [Option.elim_some, Option.bind_some]
    apply scan_pure f (by omega) _ ((candidates_sorted hw hsplit hafter).imp Int.le_of_lt)
    intro b hb
    have := candidates_within hw hsplit hafter b hb
    omega

/-- A search of 10 seconds from time 5 in the single slot `[0, 100]`, taking all it is offered. -/
theorem findWindow_eq_naiveWindow_single :
    (single (IdSet.range 1 4) 0 100).WellFormed ∧ (single (IdSet.range 1 4) 0 100).end + 10 ≤ Word.i64.hi ∧
      ((single (IdSet.range 1 4) 0 100).findWindow 5 10 none (·.resources)
          fun free => pure (some free)).result =
        .ok ((single (IdSet.range 1 4) 0 100).naiveWindow 5 10 none (·.resources) some) :=
  have hw := single_wellFormed (IdSet.range 1 4) (by decide : (0 : Int) ≤ 100) (by decide) (by decide)
  ⟨hw, by decide, findWindow_eq_naiveWindow hw (by decide) none some⟩

/-- Without that room the search stops with an overflow where the naive search finds nothing:
from time 1, the end of a window of the largest 64-bit duration is past every 64-bit time. -/
theorem findWindow_end_overflow :
    ((new (IdSet.range 1 2) 0).findWindow 1 9223372036854775807 none (·.resources)
        fun free => pure (some free)).result = .error .addOverflow ∧
      (new (IdSet.range 1 2) 0).naiveWindow 1 9223372036854775807 none (·.resources) some = none := by
  constructor
  · decide
  · decide

end Search

end SlotSet

end ClusterScheduler
