import Mathlib.Data.List.Perm.Subperm
import ClusterScheduler.SlotSet.Assemble
import ClusterScheduler.Proofs.SlotChain

/-!
# Assembling a slot chain from linked slots

`assemble` turns slots stored by key, with explicit `prev` and `next` links, into a slot set. It
first follows the `next` links from the first slot to the end of the chain, then walks the chain
again checking every slot. The first loop keeps no record of the slots it met, so links that run
into a cycle keep it going forever; `assemble` stands for that with `chainCycle`, after more turns
than there are slots. The bound is exact: `chainCycle` comes out exactly when the loop, let go on,
never stops (`assemble_chainCycle_iff`). Among more turns than slots, one slot comes twice, and
from there the loop repeats itself; the checking walk meets slots in increasing time, so it never
runs out of turns.

Otherwise `assemble` returns exactly when the slots form one well-formed chain from the first
key, `ChainOf`, whose ids leave room for a later one in 32 bits, and the slot set it returns is
well formed with an id counter above every key.
-/

namespace ClusterScheduler

def LinkedSlot.Typed (s : LinkedSlot) : Prop :=
  Word.i32.holds s.slot.id = true ∧ Word.i64.holds s.slot.begin = true ∧
    Word.i64.holds s.slot.end = true

namespace SlotSet

variable {m : List (Int × LinkedSlot)}

/-! ## Looking up slots by key -/

theorem mem_of_lookup_eq {k : Int} {s : LinkedSlot} (h : m.lookup k = some s) : (k, s) ∈ m := by
  obtain ⟨l₁, l₂, rfl, -⟩ := List.lookup_eq_some_iff.1 h
  simp

theorem mem_values_of_lookup {k : Int} {s : LinkedSlot} (h : m.lookup k = some s) :
    s ∈ m.map Prod.snd :=
  List.mem_map.2 ⟨(k, s), mem_of_lookup_eq h, rfl⟩

theorem key_eq_of_value (hvals : (m.map Prod.snd).Nodup) {k k' : Int} {s : LinkedSlot}
    (h : (k, s) ∈ m) (h' : (k', s) ∈ m) : k = k' :=
  congrArg Prod.fst (List.inj_on_of_nodup_map hvals h h' rfl)

/-! ## Keeping the last entry of each key -/

theorem lastByKey_keys_nodup_aux : ∀ (entries acc : List (Int × LinkedSlot)),
    (acc.map Prod.fst).Nodup → ((entries.foldl
      (fun m e => (m.filter (·.1 ≠ e.1)) ++ [e]) acc).map Prod.fst).Nodup
  | [], _, h => h
  | e :: entries, acc, h => by
    refine lastByKey_keys_nodup_aux entries _ ?_
    rw [List.map_append, List.nodup_append]
    refine ⟨(List.filter_sublist.map Prod.fst).nodup h, List.nodup_singleton _, ?_⟩
    intro a ha b hb
    obtain ⟨x, hx, rfl⟩ := List.mem_map.1 ha
    have : x.1 ≠ e.1 := by simpa using (List.mem_filter.1 hx).2
    simpa [List.mem_singleton.1 hb] using this

theorem mem_lastByKey_aux {x : Int × LinkedSlot} : ∀ (entries acc : List (Int × LinkedSlot)),
    x ∈ entries.foldl (fun m e => (m.filter (·.1 ≠ e.1)) ++ [e]) acc → x ∈ acc ∨ x ∈ entries
  | [], _, h => .inl h
  | e :: entries, acc, h => by
    rcases mem_lastByKey_aux entries _ h with h | h
    · rcases List.mem_append.1 h with h | h
      · exact .inl (List.mem_filter.1 h).1
      · exact .inr (List.mem_cons.2 (.inl (List.mem_singleton.1 h)))
    · exact .inr (List.mem_cons_of_mem e h)

theorem lastByKey_keys_nodup (entries : List (Int × LinkedSlot)) :
    ((lastByKey entries).map Prod.fst).Nodup :=
  lastByKey_keys_nodup_aux entries [] List.nodup_nil

theorem mem_of_mem_lastByKey {entries : List (Int × LinkedSlot)} {x : Int × LinkedSlot}
    (h : x ∈ lastByKey entries) : x ∈ entries :=
  (mem_lastByKey_aux entries [] h).resolve_left List.not_mem_nil

/-! ## The loop that follows `next` links -/

/-- One turn of the loop that follows `next` links: the slot the link names, when it is stored
under its own id and the id after it is a 32-bit value; `none` when the loop stops there, at the
end of the chain or on a fault. -/
def linkNext (m : List (Int × LinkedSlot)) (s : LinkedSlot) : Option LinkedSlot :=
  s.next.bind fun k => (m.lookup k).bind fun t =>
    if t.slot.id = k ∧ Word.i32.holds (t.slot.id + 1) = true then some t else none

def follow (m : List (Int × LinkedSlot)) : Nat → LinkedSlot → Option LinkedSlot
  | 0, s => some s
  | n + 1, s => (linkNext m s).bind (follow m n)

theorem follow_add : ∀ (a b : Nat) (s : LinkedSlot),
    follow m (a + b) s = (follow m a s).bind (follow m b)
  | 0, b, s => by simp [follow]
  | a + 1, b, s => by
    rw [show a + 1 + b = (a + b) + 1 by omega, follow, follow, Option.bind_assoc]
    congr 1
    funext t
    exact follow_add a b t

theorem follow_isSome_of_le {n n' : Nat} {s : LinkedSlot} (h : (follow m n s).isSome)
    (hle : n' ≤ n) : (follow m n' s).isSome := by
  obtain ⟨d, rfl⟩ := Nat.exists_eq_add_of_le hle
  rw [follow_add] at h
  cases hf : follow m n' s with
  | none => rw [hf] at h; cases h
  | some t => rfl

theorem linkNext_mem {s t : LinkedSlot} (h : linkNext m s = some t) : t ∈ m.map Prod.snd := by
  unfold linkNext at h
  obtain ⟨k, -, h⟩ := Option.bind_eq_some_iff.1 h
  obtain ⟨t', ht', h⟩ := Option.bind_eq_some_iff.1 h
  split at h
  · cases h
    exact mem_values_of_lookup ht'
  · cases h

theorem follow_mem {n : Nat} {s t : LinkedSlot} (h : follow m (n + 1) s = some t) :
    t ∈ m.map Prod.snd := by
  induction n generalizing s with
  | zero =>
    obtain ⟨u, hu, h⟩ := Option.bind_eq_some_iff.1 h
    cases h
    exact linkNext_mem hu
  | succ n ih =>
    obtain ⟨u, -, h⟩ := Option.bind_eq_some_iff.1 h
    exact ih h

theorem follow_periodic {p : Nat} {x : LinkedSlot} (hp : 0 < p) (h : follow m p x = some x) :
    ∀ t, (follow m t x).isSome := by
  intro t
  induction t using Nat.strong_induction_on with
  | _ t ih =>
    by_cases ht : t < p
    · exact follow_isSome_of_le (by simp [h]) ht.le
    · obtain ⟨d, rfl⟩ := Nat.exists_eq_add_of_le (Nat.le_of_not_lt ht)
      rw [follow_add, h, Option.bind_some]
      exact ih d (by omega)

theorem follow_forever {s : LinkedSlot} (h : (follow m (m.length + 1) s).isSome) :
    ∀ n, (follow m n s).isSome := by
  -- the slots after turns `1, …, m.length + 1` cannot all differ
  have hrep : ¬((List.range (m.length + 1)).map fun i => follow m (i + 1) s).Nodup := by
    intro hnd
    have hsub : ((List.range (m.length + 1)).map fun i => follow m (i + 1) s) ⊆
        (m.map Prod.snd).map some := by
      intro o ho
      obtain ⟨i, hi, rfl⟩ := List.mem_map.1 ho
      obtain ⟨t, ht⟩ := Option.isSome_iff_exists.1
        (follow_isSome_of_le h (Nat.succ_le_of_lt (List.mem_range.1 hi)))
      rw [ht]
      exact List.mem_map_of_mem (follow_mem ht)
    have hle := hnd.length_le_of_subset hsub
    simp only [List.length_map, List.length_range] at hle
    omega
  rw [List.nodup_map_iff_inj_on List.nodup_range] at hrep
  push Not at hrep
  obtain ⟨i, hi, j, hj, heq, hne⟩ := hrep
  obtain ⟨a, b, hab, hb, hsame⟩ : ∃ a b, a < b ∧ b ≤ m.length + 1 ∧
      follow m a s = follow m b s := by
    rcases Nat.lt_or_gt_of_ne hne with hlt | hlt
    · exact ⟨i + 1, j + 1, by omega, by simp at hj; omega, heq⟩
    · exact ⟨j + 1, i + 1, by omega, by simp at hi; omega, heq.symm⟩
  obtain ⟨x, hx⟩ := Option.isSome_iff_exists.1 (follow_isSome_of_le h (Nat.le_of_lt (hab.trans_le hb)))
  have hloop : follow m (b - a) x = some x := by
    have hsplit := follow_add (m := m) a (b - a) s
    rw [show a + (b - a) = b by omega, ← hsame, hx, Option.bind_some] at hsplit
    exact hsplit.symm
  have hforever := follow_periodic (by omega) hloop
  intro n
  by_cases hn : n ≤ a
  · exact follow_isSome_of_le h (hn.trans (by omega))
  · obtain ⟨d, rfl⟩ := Nat.exists_eq_add_of_le (Nat.le_of_not_le hn)
    rw [follow_add, hx, Option.bind_some]
    exact hforever d

theorem followLinks_chainCycle_iff : ∀ (fuel : Nat) (s : LinkedSlot) (fresh : Int),
    followLinks m fuel s fresh = .error .chainCycle ↔ (follow m fuel s).isSome
  | 0, s, fresh => by simp [followLinks, follow]
  | fuel + 1, s, fresh => by
    unfold followLinks
    simp only [follow, linkNext]
    cases hn : s.next with
    | none => simp
    | some k =>
      simp only [Option.bind_some]
      cases hk : m.lookup k with
      | none => simp
      | some t =>
        simp only [Option.bind_some]
        by_cases hid : t.slot.id = k
        · subst hid
          by_cases hw : Word.i32.holds (t.slot.id + 1) = true
          · simp only [ne_eq, not_true_eq_false, if_false, Word.add, hw, if_true, true_and,
              except_ok_bind, Option.bind_some]
            exact followLinks_chainCycle_iff fuel t _
          · simp [Word.add, hw]
        · simp [hid]

/-! ## The checking walk -/

/-- The checks the walk makes on a slot `s` met after `prev`: its times are ordered, its `prev`
link names `prev`, and it begins right after `prev` ends. -/
def Follows (prev : Option LinkedSlot) (s : LinkedSlot) : Prop :=
  s.slot.begin ≤ s.slot.end ∧ s.prev = prev.map (·.slot.id) ∧
    ∀ p ∈ prev, p.slot.end + 1 = s.slot.begin

/-- Every slot of a list passes the walk's checks after the one before it, the first after
`prev`. -/
def Checked : Option LinkedSlot → List LinkedSlot → Prop
  | _, [] => True
  | prev, s :: l => Follows prev s ∧ Checked (some s) l

section Walk

variable {lastId : Int} {n : Nat} {cur : Option Int} {prev : Option LinkedSlot} {s : LinkedSlot}

theorem walkChecked_succ_of_none (hs : cur.bind (fun k => m.lookup k) = none) :
    walkChecked m lastId (n + 1) cur prev = .ok [] := by
  simp [walkChecked, hs]

theorem walkChecked_succ_of_follows (hs : cur.bind (fun k => m.lookup k) = some s)
    (hf : Follows prev s) (hw : ∀ p ∈ prev, Word.i64.holds (p.slot.end + 1) = true) :
    walkChecked m lastId (n + 1) cur prev =
      List.cons s <$> walkChecked m lastId n (if s.slot.id = lastId then none else s.next)
        (some s) := by
  obtain ⟨hord, hprev, habut⟩ := hf
  have hrev : ¬s.slot.end < s.slot.begin := Int.not_lt.2 hord
  cases prev with
  | none => simp [walkChecked, hs, hrev, hprev]
  | some p =>
    have ha := habut p rfl
    have hb : Word.i64.holds s.slot.begin = true := ha ▸ hw p rfl
    simp [walkChecked, hs, hrev, hprev, Word.add, ha, hb]

theorem walkChecked_succ_of_not_follows (lastId : Int) (n : Nat)
    (hs : cur.bind (fun k => m.lookup k) = some s)
    (hf : ¬(Follows prev s ∧ ∀ p ∈ prev, Word.i64.holds (p.slot.end + 1) = true)) :
    ∃ f, f ≠ .chainCycle ∧ walkChecked m lastId (n + 1) cur prev = .error f := by
  by_cases hrev : s.slot.end < s.slot.begin
  · exact ⟨.slotReversed s.slot.id s.slot.begin s.slot.end, by simp, by simp [walkChecked, hs, hrev]⟩
  by_cases hprev : s.prev = prev.map (·.slot.id)
  swap
  · exact ⟨.wrongPrev s.slot.id, by simp, by simp [walkChecked, hs, hrev, hprev]⟩
  cases prev with
  | none =>
    exact absurd ⟨⟨Int.not_lt.1 hrev, hprev, by simp⟩, by simp⟩ hf
  | some p =>
    by_cases hp : Word.i64.holds (p.slot.end + 1) = true
    · have ha : p.slot.end + 1 ≠ s.slot.begin := by
        intro ha
        exact hf ⟨⟨Int.not_lt.1 hrev, hprev, by simpa using ha⟩, by simpa using hp⟩
      exact ⟨.gapOrOverlap p.slot.id p.slot.end s.slot.id s.slot.begin, by simp,
        by simp [walkChecked, hs, hrev, hprev, Word.add, hp, ha]⟩
    · exact ⟨.addOverflow, by simp, by simp [walkChecked, hs, hrev, hprev, Word.add, hp]⟩

/-- A walk that returns met stored slots, each passing the checks after the one before, the first
being the slot of the key it started from. -/
theorem walkChecked_ok : ∀ {n : Nat} {cur : Option Int} {prev : Option LinkedSlot}
    {l : List LinkedSlot}, walkChecked m lastId n cur prev = .ok l →
    Checked prev l ∧ (∀ t ∈ l, t ∈ m.map Prod.snd) ∧ l.head? = cur.bind (fun k => m.lookup k)
  | 0, _, _, _, h => by cases h
  | n + 1, cur, prev, l, h => by
    cases hs : cur.bind (fun k => m.lookup k) with
    | none =>
      rw [walkChecked_succ_of_none hs] at h
      cases h
      exact ⟨trivial, by simp, rfl⟩
    | some s =>
      by_cases hf : Follows prev s ∧ ∀ p ∈ prev, Word.i64.holds (p.slot.end + 1) = true
      · rw [walkChecked_succ_of_follows hs hf.1 hf.2] at h
        obtain ⟨rest, hrest, rfl⟩ := except_map_eq_ok h
        obtain ⟨hchk, hmem, -⟩ := walkChecked_ok hrest
        have hs' : s ∈ m.map Prod.snd := by
          obtain ⟨k, -, hk⟩ := Option.bind_eq_some_iff.1 hs
          exact mem_values_of_lookup hk
        refine ⟨⟨hf.1, hchk⟩, ?_, rfl⟩
        intro t ht
        rcases List.mem_cons.1 ht with rfl | ht
        · exact hs'
        · exact hmem t ht
      · obtain ⟨f, -, hfault⟩ := walkChecked_succ_of_not_follows lastId n hs hf
        rw [hfault] at h
        cases h

theorem walkChecked_chainCycle : ∀ {n : Nat} {cur : Option Int} {prev : Option LinkedSlot},
    walkChecked m lastId n cur prev = .error .chainCycle →
    ∃ l : List LinkedSlot, l.length = n ∧ (∀ t ∈ l, t ∈ m.map Prod.snd) ∧ Checked prev l
  | 0, _, _, _ => ⟨[], rfl, by simp, trivial⟩
  | n + 1, cur, prev, h => by
    cases hs : cur.bind (fun k => m.lookup k) with
    | none =>
      rw [walkChecked_succ_of_none hs] at h
      cases h
    | some s =>
      by_cases hf : Follows prev s ∧ ∀ p ∈ prev, Word.i64.holds (p.slot.end + 1) = true
      · rw [walkChecked_succ_of_follows hs hf.1 hf.2] at h
        cases hrest : walkChecked m lastId n (if s.slot.id = lastId then none else s.next) (some s) with
        | error e =>
          rw [hrest] at h
          cases h
          obtain ⟨l, hlen, hmem, hchk⟩ := walkChecked_chainCycle hrest
          have hs' : s ∈ m.map Prod.snd := by
            obtain ⟨k, -, hk⟩ := Option.bind_eq_some_iff.1 hs
            exact mem_values_of_lookup hk
          refine ⟨s :: l, by simp [hlen], ?_, ⟨hf.1, hchk⟩⟩
          intro t ht
          rcases List.mem_cons.1 ht with rfl | ht
          · exact hs'
          · exact hmem t ht
        | ok rest =>
          rw [hrest] at h
          cases h
      · obtain ⟨f, hne, hfault⟩ := walkChecked_succ_of_not_follows lastId n hs hf
        rw [hfault] at h
        cases h
        exact absurd rfl hne

end Walk

/-! ## Chains that pass the checks -/

theorem Checked.after {p : LinkedSlot} {l : List LinkedSlot} (h : Checked (some p) l) :
    ∀ t ∈ l, p.slot.end < t.slot.begin := by
  induction l generalizing p with
  | nil => simp
  | cons s l ih =>
    obtain ⟨⟨hord, -, habut⟩, hrest⟩ := h
    have hps : p.slot.end + 1 = s.slot.begin := habut p rfl
    intro t ht
    rcases List.mem_cons.1 ht with rfl | ht
    · omega
    · have := ih hrest t ht
      omega

theorem Checked.ordered {prev : Option LinkedSlot} {l : List LinkedSlot} (h : Checked prev l) :
    ∀ t ∈ l, t.slot.begin ≤ t.slot.end := by
  induction l generalizing prev with
  | nil => simp
  | cons s l ih =>
    obtain ⟨⟨hord, -, -⟩, hrest⟩ := h
    intro t ht
    rcases List.mem_cons.1 ht with rfl | ht
    · exact hord
    · exact ih hrest t ht

theorem Checked.pairwise {prev : Option LinkedSlot} {l : List LinkedSlot} (h : Checked prev l) :
    l.Pairwise fun a b => a.slot.end < b.slot.begin := by
  induction l generalizing prev with
  | nil => exact .nil
  | cons s l ih => exact List.Pairwise.cons (Checked.after h.2) (ih h.2)

theorem Checked.nodup {prev : Option LinkedSlot} {l : List LinkedSlot} (h : Checked prev l) :
    l.Nodup := by
  have hord := h.ordered
  refine h.pairwise.imp_of_mem ?_
  intro a b ha _ hab hsame
  subst hsame
  have := hord a ha
  omega

theorem Checked.abut {prev : Option LinkedSlot} {l : List LinkedSlot} (h : Checked prev l) :
    (l.map (·.slot)).IsChain Abut := by
  induction l generalizing prev with
  | nil => exact .nil
  | cons a l ih =>
    cases l with
    | nil => exact .singleton _
    | cons b l =>
      rw [List.map_cons, List.map_cons, List.isChain_cons_cons]
      exact ⟨h.2.1.2.2 a rfl, by simpa using ih h.2⟩

/-! ## Paths along `next` links -/

/-- The `next` links lead from `s` through the slots `p`, each stored under its own id with room
for the id after it, to `last`, which has no `next` link. -/
structure LinkPath (m : List (Int × LinkedSlot)) (s : LinkedSlot) (p : List LinkedSlot)
    (last : LinkedSlot) : Prop where
  nexts : (s :: p).IsChain fun a b => a.next = some b.slot.id
  keyed : ∀ t ∈ p, m.lookup t.slot.id = some t
  room : ∀ t ∈ p, Word.i32.holds (t.slot.id + 1) = true
  ends : (s :: p).getLast? = some last
  stops : last.next = none

theorem LinkPath.tail {s t last : LinkedSlot} {p : List LinkedSlot}
    (h : LinkPath m s (t :: p) last) : LinkPath m t p last where
  nexts := (List.isChain_cons_cons.1 h.nexts).2
  keyed u hu := h.keyed u (List.mem_cons_of_mem t hu)
  room u hu := h.room u (List.mem_cons_of_mem t hu)
  ends := by simpa [List.getLast?_cons_cons] using h.ends
  stops := h.stops

theorem LinkPath.id_ne_last {s last : LinkedSlot} {p : List LinkedSlot} (h : LinkPath m s p last)
    (hs : m.lookup s.slot.id = some s) : ∀ a ∈ (s :: p).dropLast, a.slot.id ≠ last.slot.id := by
  induction p generalizing s with
  | nil => simp
  | cons t p ih =>
    have ht : m.lookup t.slot.id = some t := h.keyed t (List.mem_cons_self ..)
    intro a ha
    rw [List.dropLast_cons_cons] at ha
    rcases List.mem_cons.1 ha with rfl | ha
    · intro hid
      -- `a` and `last` are stored under one id, so they are one slot, which has no `next`
      have hlast : m.lookup last.slot.id = some last := by
        have hmem : last ∈ t :: p := by
          have hl := h.ends
          rw [List.getLast?_cons_cons] at hl
          exact List.mem_of_getLast? hl
        rcases List.mem_cons.1 hmem with rfl | hmem
        · exact ht
        · exact h.keyed last (List.mem_cons_of_mem t hmem)
      have hsame : a = last := by
        rw [← hid] at hlast
        exact Option.some.inj (hs.symm.trans hlast)
      have hnext := (List.isChain_cons_cons.1 h.nexts).1
      rw [hsame, h.stops] at hnext
      cases hnext
    · exact ih h.tail ht a ha

theorem followLinks_ok : ∀ {n : Nat} {s : LinkedSlot} {fresh : Int} {last : LinkedSlot}
    {fresh' : Int}, followLinks m n s fresh = .ok (last, fresh') →
    ∃ p, p.length < n ∧ LinkPath m s p last ∧ fresh ≤ fresh' ∧ (∀ t ∈ p, t.slot.id < fresh') ∧
      (fresh' = fresh ∨ ∃ t ∈ p, fresh' = t.slot.id + 1)
  | 0, _, _, _, _, h => by cases h
  | n + 1, s, fresh, last, fresh', h => by
    unfold followLinks at h
    cases hn : s.next with
    | none =>
      rw [hn] at h
      cases h
      exact ⟨[], by simp, ⟨.singleton _, by simp, by simp, rfl, hn⟩, Int.le_refl _, by simp,
        .inl rfl⟩
    | some k =>
      rw [hn] at h
      simp only at h
      cases hk : m.lookup k with
      | none =>
        rw [hk] at h
        cases h
      | some t =>
        rw [hk] at h
        simp only at h
        by_cases hid : t.slot.id = k
        · subst hid
          by_cases hw : Word.i32.holds (t.slot.id + 1) = true
          · simp only [ne_eq, not_true_eq_false, if_false, Word.add, hw, if_true,
              except_ok_bind] at h
            obtain ⟨p, hlen, hpath, hle, habove, hat⟩ := followLinks_ok h
            refine ⟨t :: p, by simp; omega, ⟨?_, ?_, ?_, ?_, hpath.stops⟩, by omega, ?_, ?_⟩
            · exact List.isChain_cons_cons.2 ⟨hn, hpath.nexts⟩
            · intro u hu
              rcases List.mem_cons.1 hu with rfl | hu
              · exact hk
              · exact hpath.keyed u hu
            · intro u hu
              rcases List.mem_cons.1 hu with rfl | hu
              · exact hw
              · exact hpath.room u hu
            · rw [List.getLast?_cons_cons]
              exact hpath.ends
            · intro u hu
              rcases List.mem_cons.1 hu with rfl | hu
              · omega
              · exact habove u hu
            · rcases hat with hat | ⟨u, hu, hat⟩
              · by_cases hmax : fresh ≤ t.slot.id + 1
                · exact .inr ⟨t, List.mem_cons_self .., by omega⟩
                · exact .inl (by omega)
              · exact .inr ⟨u, List.mem_cons_of_mem t hu, hat⟩
          · simp [Word.add, hw] at h
        · simp [hid] at h

theorem followLinks_of_linkPath : ∀ {p : List LinkedSlot} {n : Nat} {s last : LinkedSlot}
    (fresh : Int), LinkPath m s p last → p.length < n → ∃ fresh', followLinks m n s fresh = .ok (last, fresh')
  | _, 0, _, _, _, _, hlen => absurd hlen (Nat.not_lt_zero _)
  | [], n + 1, s, last, fresh, h, _ => by
    have hs : s = last := by simpa using h.ends
    subst hs
    exact ⟨fresh, by simp [followLinks, h.stops]⟩
  | t :: p, n + 1, s, last, fresh, h, hlen => by
    have hn : s.next = some t.slot.id := (List.isChain_cons_cons.1 h.nexts).1
    have hk : m.lookup t.slot.id = some t := h.keyed t (List.mem_cons_self ..)
    have hw : Word.i32.holds (t.slot.id + 1) = true := h.room t (List.mem_cons_self ..)
    obtain ⟨fresh', hrest⟩ := followLinks_of_linkPath (max fresh (t.slot.id + 1)) h.tail
      (by simp at hlen; omega)
    exact ⟨fresh', by simp [followLinks, hn, hk, Word.add, hw, hrest]⟩

theorem LinkPath.walk_next {s t last : LinkedSlot} {p : List LinkedSlot}
    (h : LinkPath m s (t :: p) last) (hs : m.lookup s.slot.id = some s) :
    (if s.slot.id = last.slot.id then none else s.next) = some t.slot.id := by
  have hne : s.slot.id ≠ last.slot.id :=
    h.id_ne_last hs s (by rw [List.dropLast_cons_cons]; exact List.mem_cons_self ..)
  rw [if_neg hne]
  exact (List.isChain_cons_cons.1 h.nexts).1

theorem walkChecked_eq_of_linkPath {last : LinkedSlot} : ∀ {p : List LinkedSlot} {n : Nat}
    {s : LinkedSlot} {prev : Option LinkedSlot} {l : List LinkedSlot}, LinkPath m s p last →
    m.lookup s.slot.id = some s → walkChecked m last.slot.id n (some s.slot.id) prev = .ok l →
    l = s :: p
  | _, 0, _, _, _, _, _, h => by cases h
  | p, n + 1, s, prev, l, hpath, hs, h => by
    have hs' : (some s.slot.id).bind (fun k => m.lookup k) = some s := hs
    by_cases hf : Follows prev s ∧ ∀ q ∈ prev, Word.i64.holds (q.slot.end + 1) = true
    · rw [walkChecked_succ_of_follows hs' hf.1 hf.2] at h
      obtain ⟨rest, hrest, rfl⟩ := except_map_eq_ok h
      cases p with
      | nil =>
        have hlast : s = last := by simpa using hpath.ends
        subst hlast
        rw [if_pos rfl] at hrest
        have hnil := (walkChecked_ok hrest).2.2
        rw [Option.bind_none, List.head?_eq_none_iff] at hnil
        rw [hnil]
      | cons t p =>
        rw [hpath.walk_next hs] at hrest
        rw [walkChecked_eq_of_linkPath hpath.tail (hpath.keyed t (List.mem_cons_self ..)) hrest]
    · obtain ⟨f, -, hfault⟩ := walkChecked_succ_of_not_follows last.slot.id n hs' hf
      rw [hfault] at h
      cases h

theorem walkChecked_of_linkPath {last : LinkedSlot} : ∀ {p : List LinkedSlot} {n : Nat}
    {s : LinkedSlot} {prev : Option LinkedSlot}, LinkPath m s p last →
    m.lookup s.slot.id = some s → Checked prev (s :: p) →
    (∀ t ∈ s :: p, Word.i64.lo ≤ t.slot.begin ∧ t.slot.end ≤ Word.i64.hi) → p.length + 1 < n →
    walkChecked m last.slot.id n (some s.slot.id) prev = .ok (s :: p)
  | _, 0, _, _, _, _, _, _, hlen => absurd hlen (Nat.not_lt_zero _)
  | p, n + 1, s, prev, hpath, hs, hchk, htimes, hlen => by
    have hs' : (some s.slot.id).bind (fun k => m.lookup k) = some s := hs
    have hw : ∀ q ∈ prev, Word.i64.holds (q.slot.end + 1) = true := by
      intro q hq
      have hb := hchk.1.2.2 q hq
      have ht := htimes s (List.mem_cons_self ..)
      have hord := hchk.1.1
      simp only [Word.holds, decide_eq_true_eq]
      omega
    rw [walkChecked_succ_of_follows hs' hchk.1 hw]
    cases p with
    | nil =>
      have hlast : s = last := by simpa using hpath.ends
      subst hlast
      rw [if_pos rfl]
      obtain ⟨n', rfl⟩ : ∃ n', n = n' + 1 := Nat.exists_eq_succ_of_ne_zero (by simp at hlen; omega)
      rw [walkChecked_succ_of_none rfl]
      rfl
    | cons t p =>
      rw [hpath.walk_next hs,
        walkChecked_of_linkPath hpath.tail (hpath.keyed t (List.mem_cons_self ..)) hchk.2
          (fun u hu => htimes u (List.mem_cons_of_mem s hu)) (by simp at hlen ⊢; omega)]
      rfl

/-! ## Chains the assembly accepts -/

/-- The stored slots `m` form one chain from the key `k`, listed in order by `l`: every slot of
`l` is stored under its own id, the first has id `k`, each `next` link names the slot after it
and the last slot has none, the slots pass the walk's checks (ordered times, each `prev` link
naming the slot before and none for the first, each slot beginning right after the one before
ends), and every key is the id of a slot of `l`. -/
structure ChainOf (m : List (Int × LinkedSlot)) (k : Int) (l : List LinkedSlot) : Prop where
  start : l.head?.map (·.slot.id) = some k
  keyed : ∀ s ∈ l, m.lookup s.slot.id = some s
  nexts : l.IsChain fun a b => a.next = some b.slot.id
  stops : ∀ s ∈ l.getLast?, s.next = none
  checked : Checked none l
  complete : ∀ key ∈ m.map Prod.fst, key ∈ l.map (·.slot.id)

theorem values_of_length_eq {l : List LinkedSlot} (hnd : l.Nodup)
    (hsub : ∀ t ∈ l, t ∈ m.map Prod.snd) (hlen : l.length = m.length) :
    (m.map Prod.snd).Nodup ∧ ∀ v ∈ m.map Prod.snd, v ∈ l := by
  have hperm : l.Perm (m.map Prod.snd) :=
    (hnd.subperm hsub).perm_of_length_le (by simp [hlen])
  exact ⟨hperm.nodup_iff.1 hnd, fun v hv => hperm.mem_iff.2 hv⟩

theorem walkChecked_ne_chainCycle (lastId : Int) (cur : Option Int) (prev : Option LinkedSlot) :
    walkChecked m lastId (m.length + 1) cur prev ≠ .error .chainCycle := by
  intro h
  obtain ⟨l, hlen, hmem, hchk⟩ := walkChecked_chainCycle h
  have hle := hchk.nodup.length_le_of_subset hmem
  simp at hle
  omega

section Assemble

variable {entries : List (Int × LinkedSlot)} {k : Int}

theorem assemble_eq_ok {ss : SlotSet} (h : assemble entries k = .ok ss) :
    ∃ first last fresh chain, (lastByKey entries).lookup k = some first ∧
      Word.i32.holds (first.slot.id + 1) = true ∧
      followLinks (lastByKey entries) ((lastByKey entries).length + 1) first (first.slot.id + 1) =
        .ok (last, fresh) ∧
      walkChecked (lastByKey entries) last.slot.id ((lastByKey entries).length + 1)
        (some first.slot.id) none = .ok chain ∧
      (∃ head, (lastByKey entries).lookup first.slot.id = some head ∧
        head.slot.begin = first.slot.begin) ∧
      chain.length = (lastByKey entries).length ∧
      ss = { slots := chain.map (·.slot), nextId := fresh } := by
  cases hk : (lastByKey entries).lookup k with
  | none => simp [assemble, hk] at h
  | some first =>
    by_cases hw : Word.i32.holds (first.slot.id + 1) = true
    swap
    · simp [assemble, hk, hw, Word.add] at h
    cases hf : followLinks (lastByKey entries) ((lastByKey entries).length + 1) first
        (first.slot.id + 1) with
    | error e => simp [assemble, hk, hw, Word.add, hf] at h
    | ok r =>
      obtain ⟨last, fresh⟩ := r
      cases hc : walkChecked (lastByKey entries) last.slot.id ((lastByKey entries).length + 1)
          (some first.slot.id) none with
      | error e => simp [assemble, hk, hw, Word.add, hf, hc] at h
      | ok chain =>
        cases hh : (lastByKey entries).lookup first.slot.id with
        | none => simp [assemble, hk, hw, Word.add, hf, hc, hh] at h
        | some head =>
          cases ht : chain.getLast? with
          | none => simp [assemble, hk, hw, Word.add, hf, hc, hh, ht] at h
          | some tail =>
            simp [assemble, hk, hw, Word.add, hf, hc, hh, ht] at h
            split_ifs at h with hb hid hend hlen
            · exact ⟨first, last, fresh, chain, rfl, hw, hf, hc, ⟨head, hh, hb⟩, hlen,
                (Except.ok.inj h).symm⟩
            all_goals cases h

theorem assemble_eq_ok_of {first last head tail : LinkedSlot} {fresh : Int}
    {chain : List LinkedSlot} (hk : (lastByKey entries).lookup k = some first)
    (hw : Word.i32.holds (first.slot.id + 1) = true)
    (hf : followLinks (lastByKey entries) ((lastByKey entries).length + 1) first
      (first.slot.id + 1) = .ok (last, fresh))
    (hc : walkChecked (lastByKey entries) last.slot.id ((lastByKey entries).length + 1)
      (some first.slot.id) none = .ok chain)
    (hh : (lastByKey entries).lookup first.slot.id = some head)
    (hb : head.slot.begin = first.slot.begin) (ht : chain.getLast? = some tail)
    (hid : tail.slot.id = last.slot.id) (hend : tail.slot.end = last.slot.end)
    (hlen : chain.length = (lastByKey entries).length) :
    assemble entries k = .ok { slots := chain.map (·.slot), nextId := fresh } := by
  simp [assemble, hk, hw, Word.add, hf, hc, hh, ht, hb, hid, hend, hlen]
  rfl

theorem chainOf_of_assemble_ok {ss : SlotSet} (h : assemble entries k = .ok ss) :
    ∃ l, ChainOf (lastByKey entries) k l ∧ (∀ s ∈ l, Word.i32.holds (s.slot.id + 1) = true) ∧
      ss.slots = l.map (·.slot) ∧ (∀ s ∈ l, s.slot.id < ss.nextId) ∧
      ∃ s ∈ l, ss.nextId = s.slot.id + 1 := by
  obtain ⟨first, last, fresh, chain, hk, hw, hf, hc, ⟨head, hh, hb⟩, hlen, rfl⟩ := assemble_eq_ok h
  obtain ⟨p, -, hpath, hle, habove, hat⟩ := followLinks_ok hf
  obtain ⟨hchk, hmem, hhead⟩ := walkChecked_ok hc
  obtain ⟨hvals, hall⟩ := values_of_length_eq hchk.nodup hmem hlen
  rw [Option.bind_some, hh] at hhead
  have hchain : chain = head :: chain.tail := List.eq_cons_of_mem_head? hhead
  have hfirst : head = first := by
    have hin := hall first (mem_values_of_lookup hk)
    rw [hchain] at hin hchk
    rcases List.mem_cons.1 hin with hin | hin
    · exact hin.symm
    · have hafter := Checked.after hchk.2 first hin
      have hord := hchk.1.1
      omega
  subst hfirst
  have hkey : k = head.slot.id :=
    key_eq_of_value hvals (mem_of_lookup_eq hk) (mem_of_lookup_eq hh)
  subst hkey
  have hwalk : chain = head :: p := walkChecked_eq_of_linkPath hpath hh hc
  subst hwalk
  have hkeyed : ∀ s ∈ head :: p, (lastByKey entries).lookup s.slot.id = some s := by
    intro s hs
    rcases List.mem_cons.1 hs with rfl | hs
    · exact hh
    · exact hpath.keyed s hs
  refine ⟨head :: p, ⟨by simp, hkeyed, hpath.nexts, ?_, hchk, ?_⟩, ?_, rfl, ?_, ?_⟩
  · intro s hs
    rw [hpath.ends] at hs
    cases hs
    exact hpath.stops
  · -- every key stores a slot the walk met, and that slot is stored under its id
    intro key hkey
    obtain ⟨⟨key', v⟩, hv, rfl⟩ := List.mem_map.1 hkey
    have hvl := hall v (List.mem_map_of_mem hv)
    have hsame := key_eq_of_value hvals hv (mem_of_lookup_eq (hkeyed v hvl))
    exact List.mem_map.2 ⟨v, hvl, hsame.symm⟩
  · intro s hs
    rcases List.mem_cons.1 hs with rfl | hs
    · exact hw
    · exact hpath.room s hs
  · intro s hs
    rcases List.mem_cons.1 hs with rfl | hs
    · show s.slot.id < fresh
      omega
    · exact habove s hs
  · rcases hat with hat | ⟨s, hs, hat⟩
    · exact ⟨head, List.mem_cons_self .., hat⟩
    · exact ⟨s, List.mem_cons_of_mem head hs, hat⟩

theorem assemble_ok_of_chainOf {l : List LinkedSlot}
    (htyped : ∀ e ∈ entries, e.2.Typed) (hc : ChainOf (lastByKey entries) k l)
    (hroom : ∀ s ∈ l, s.slot.id < Word.i32.hi) : ∃ ss, assemble entries k = .ok ss := by
  obtain ⟨first, p, rfl⟩ : ∃ first p, l = first :: p := by
    cases l with
    | nil =>
      have hstart := hc.start
      simp at hstart
    | cons first p => exact ⟨first, p, rfl⟩
  have hsub : ∀ t ∈ first :: p, t ∈ (lastByKey entries).map Prod.snd :=
    fun t ht => mem_values_of_lookup (hc.keyed t ht)
  have htyped' : ∀ t ∈ first :: p, t.Typed := by
    intro t ht
    obtain ⟨⟨key, v⟩, hv, rfl⟩ := List.mem_map.1 (hsub t ht)
    exact htyped _ (mem_of_mem_lastByKey hv)
  have hroom' : ∀ t ∈ first :: p, Word.i32.holds (t.slot.id + 1) = true := by
    intro t ht
    have hlo := (htyped' t ht).1
    have hhi := hroom t ht
    simp only [Word.holds, decide_eq_true_eq] at hlo ⊢
    omega
  have hfirst := hc.keyed first (List.mem_cons_self ..)
  have hk : (lastByKey entries).lookup k = some first := by
    have hid : first.slot.id = k := by simpa using hc.start
    rwa [← hid]
  obtain ⟨last, hlast⟩ : ∃ last, (first :: p).getLast? = some last :=
    ⟨_, List.getLast?_eq_getLast_of_ne_nil (List.cons_ne_nil first p)⟩
  have hpath : LinkPath (lastByKey entries) first p last :=
    ⟨hc.nexts, fun t ht => hc.keyed t (List.mem_cons_of_mem first ht),
      fun t ht => hroom' t (List.mem_cons_of_mem first ht), hlast, hc.stops last hlast⟩
  -- the chain is every stored slot once: no more slots than stored, and every key among its ids
  have hle : (first :: p).length ≤ (lastByKey entries).length := by
    simpa using hc.checked.nodup.length_le_of_subset hsub
  have hge : (lastByKey entries).length ≤ (first :: p).length := by
    simpa using (lastByKey_keys_nodup entries).length_le_of_subset hc.complete
  have htimes : ∀ t ∈ first :: p, Word.i64.lo ≤ t.slot.begin ∧ t.slot.end ≤ Word.i64.hi := by
    intro t ht
    obtain ⟨-, hb, he⟩ := htyped' t ht
    simp only [Word.holds, decide_eq_true_eq] at hb he
    omega
  obtain ⟨fresh, hf⟩ := followLinks_of_linkPath (n := (lastByKey entries).length + 1)
    (first.slot.id + 1) hpath (by simp at hle; omega)
  have hwalk := walkChecked_of_linkPath (n := (lastByKey entries).length + 1) hpath hfirst
    hc.checked htimes (by simp at hle; omega)
  exact ⟨_, assemble_eq_ok_of hk (hroom' first (List.mem_cons_self ..)) hf hwalk hfirst rfl hlast
    rfl rfl (by omega)⟩

theorem assemble_wellFormed {ss : SlotSet} (htyped : ∀ e ∈ entries, e.2.Typed)
    (h : assemble entries k = .ok ss) :
    ss.WellFormed ∧ ∀ key ∈ (lastByKey entries).map Prod.fst, key < ss.nextId := by
  obtain ⟨l, hc, hroom, hslots, habove, s, hs, hnext⟩ := chainOf_of_assemble_ok h
  have htyped' : ∀ t ∈ l, t.Typed := by
    intro t ht
    exact htyped _ (mem_of_mem_lastByKey (mem_of_lookup_eq (hc.keyed t ht)))
  have hne : l ≠ [] := by
    intro hnil
    have hstart := hc.start
    simp [hnil] at hstart
  refine ⟨⟨?_, ?_, ?_, ?_, ?_, ?_, ?_⟩, ?_⟩
  · simpa [hslots] using hne
  · simpa [hslots] using hc.checked.ordered
  · rw [hslots]
    exact hc.checked.abut
  · -- slots of one id are stored under it, so they are one slot
    rw [hslots, List.map_map]
    refine hc.checked.nodup.map_on ?_
    intro a ha b hb hab
    have hab : a.slot.id = b.slot.id := hab
    exact Option.some.inj ((hc.keyed a ha).symm.trans (hab ▸ hc.keyed b hb))
  · simpa [hslots] using habove
  · have hw := hroom s hs
    simp only [Word.holds, decide_eq_true_eq] at hw
    rw [hnext]
    exact hw
  · intro t ht
    rw [hslots] at ht
    obtain ⟨u, hu, rfl⟩ := List.mem_map.1 ht
    obtain ⟨-, hb, he⟩ := htyped' u hu
    simp only [Word.holds, decide_eq_true_eq] at hb he
    exact ⟨hb.1, he.2⟩
  · intro key hkey
    obtain ⟨u, hu, rfl⟩ := List.mem_map.1 (hc.complete key hkey)
    exact habove u hu

theorem assemble_chainCycle_iff_followLinks {first : LinkedSlot}
    (hk : (lastByKey entries).lookup k = some first)
    (hw : Word.i32.holds (first.slot.id + 1) = true) :
    assemble entries k = .error .chainCycle ↔
      followLinks (lastByKey entries) ((lastByKey entries).length + 1) first (first.slot.id + 1) =
        .error .chainCycle := by
  cases hf : followLinks (lastByKey entries) ((lastByKey entries).length + 1) first
      (first.slot.id + 1) with
  | error e => simp [assemble, hk, hw, Word.add, hf]
  | ok r =>
    obtain ⟨last, fresh⟩ := r
    simp only [reduceCtorEq, iff_false]
    -- every later step fails, if at all, with a fault of its own
    cases hc : walkChecked (lastByKey entries) last.slot.id ((lastByKey entries).length + 1)
        (some first.slot.id) none with
    | error e =>
      have hne : e ≠ .chainCycle := fun he => walkChecked_ne_chainCycle _ _ _ (he ▸ hc)
      simp [assemble, hk, hw, Word.add, hf, hc, hne]
    | ok chain =>
      cases hh : (lastByKey entries).lookup first.slot.id with
      | none => simp [assemble, hk, hw, Word.add, hf, hc, hh]
      | some head =>
        cases ht : chain.getLast? with
        | none => simp [assemble, hk, hw, Word.add, hf, hc, hh, ht]
        | some tail =>
          simp [assemble, hk, hw, Word.add, hf, hc, hh, ht]
          split_ifs <;> intro h <;> cases h

theorem assemble_chainCycle_iff_forever :
    assemble entries k = .error .chainCycle ↔
      ∃ first, (lastByKey entries).lookup k = some first ∧
        Word.i32.holds (first.slot.id + 1) = true ∧
        ∀ n, (follow (lastByKey entries) n first).isSome := by
  cases hk : (lastByKey entries).lookup k with
  | none => simp [assemble, hk]
  | some first =>
    by_cases hw : Word.i32.holds (first.slot.id + 1) = true
    · rw [assemble_chainCycle_iff_followLinks hk hw, followLinks_chainCycle_iff]
      constructor
      · intro h
        exact ⟨first, rfl, hw, follow_forever h⟩
      · rintro ⟨first', hfirst, -, hforever⟩
        cases hfirst
        exact hforever _
    · simp [assemble, hk, hw, Word.add]

/-- Assembling a slot set from slots by key, whose ids are 32-bit values and times 64-bit
values, ends in one of three ways. It runs out of turns exactly when the loop that follows `next`
links from the first slot would go on forever. It returns exactly when the stored slots form one
chain from the first key whose ids leave room for the id after each. And what it returns is a
well-formed slot set whose id counter is above every key, so that fresh ids taken later name no
stored slot. -/
theorem assemble_validates_chains (entries : List (Int × LinkedSlot)) (k : Int)
    (htyped : ∀ e ∈ entries, e.2.Typed) :
    (assemble entries k = .error .chainCycle ↔
      ∃ first, (lastByKey entries).lookup k = some first ∧
        Word.i32.holds (first.slot.id + 1) = true ∧
        ∀ n, (follow (lastByKey entries) n first).isSome) ∧
    ((∃ ss, assemble entries k = .ok ss) ↔
      ∃ l, ChainOf (lastByKey entries) k l ∧ ∀ s ∈ l, s.slot.id < Word.i32.hi) ∧
    ∀ ss, assemble entries k = .ok ss →
      ss.WellFormed ∧ ∀ key ∈ (lastByKey entries).map Prod.fst, key < ss.nextId := by
  refine ⟨assemble_chainCycle_iff_forever, ⟨?_, ?_⟩, fun ss h => assemble_wellFormed htyped h⟩
  · rintro ⟨ss, h⟩
    obtain ⟨l, hc, hroom, -⟩ := chainOf_of_assemble_ok h
    refine ⟨l, hc, fun s hs => ?_⟩
    have hw := hroom s hs
    simp only [Word.holds, decide_eq_true_eq] at hw
    omega
  · rintro ⟨l, hc, hroom⟩
    exact assemble_ok_of_chainOf htyped hc hroom

/-- A slot `[0, 10]` stored under its id 1 is typed, so the three outcomes apply to it. -/
theorem assemble_validates_one_slot :
    (∀ e ∈ [((1 : Int), (⟨⟨1, 0, 10, ∅, [], []⟩, none, none⟩ : LinkedSlot))], e.2.Typed) ∧
    (assemble [(1, ⟨⟨1, 0, 10, ∅, [], []⟩, none, none⟩)] 1 = .error .chainCycle ↔
      ∃ first, (lastByKey [(1, ⟨⟨1, 0, 10, ∅, [], []⟩, none, none⟩)]).lookup 1 = some first ∧
        Word.i32.holds (first.slot.id + 1) = true ∧
        ∀ n, (follow (lastByKey [(1, ⟨⟨1, 0, 10, ∅, [], []⟩, none, none⟩)]) n first).isSome) ∧
    ((∃ ss, assemble [(1, ⟨⟨1, 0, 10, ∅, [], []⟩, none, none⟩)] 1 = .ok ss) ↔
      ∃ l, ChainOf (lastByKey [(1, ⟨⟨1, 0, 10, ∅, [], []⟩, none, none⟩)]) 1 l ∧
        ∀ s ∈ l, s.slot.id < Word.i32.hi) ∧
    ∀ ss, assemble [(1, ⟨⟨1, 0, 10, ∅, [], []⟩, none, none⟩)] 1 = .ok ss →
      ss.WellFormed ∧
        ∀ key ∈ (lastByKey [(1, ⟨⟨1, 0, 10, ∅, [], []⟩, none, none⟩)]).map Prod.fst,
          key < ss.nextId := by
  have htyped : ∀ e ∈ [((1 : Int), (⟨⟨1, 0, 10, ∅, [], []⟩, none, none⟩ : LinkedSlot))],
      e.2.Typed := by
    intro e he
    rw [List.mem_singleton] at he
    subst he
    exact ⟨by decide, by decide, by decide⟩
  exact ⟨htyped, assemble_validates_chains _ 1 htyped⟩

/-- The loop that follows `next` links goes on forever when a slot links to itself, where the
assembly reports running out of turns; and a one-slot chain whose id is the largest 32-bit value
is a well-formed chain, yet the assembly overflows on the id after it. -/
theorem assemble_loops_or_overflows :
    (∀ n, (follow [(1, ⟨⟨1, 0, 10, ∅, [], []⟩, none, some 1⟩)] n
      ⟨⟨1, 0, 10, ∅, [], []⟩, none, some 1⟩).isSome) ∧
    assemble [(1, ⟨⟨1, 0, 10, ∅, [], []⟩, none, some 1⟩)] 1 = .error .chainCycle ∧
    ChainOf [(2147483647, ⟨⟨2147483647, 0, 10, ∅, [], []⟩, none, none⟩)] 2147483647
      [⟨⟨2147483647, 0, 10, ∅, [], []⟩, none, none⟩] ∧
    assemble [(2147483647, ⟨⟨2147483647, 0, 10, ∅, [], []⟩, none, none⟩)] 2147483647 =
      .error .addOverflow := by
  refine ⟨follow_periodic Nat.one_pos (by decide), by decide, ⟨by decide, ?_, .singleton _, ?_,
    ⟨⟨by decide, rfl, by simp⟩, trivial⟩, by decide⟩, by decide⟩
  · intro s hs
    simp only [List.mem_singleton] at hs
    subst hs
    decide
  · intro s hs
    simp only [List.getLast?_singleton, Option.mem_def, Option.some.injEq] at hs
    subst hs
    rfl

end Assemble

end SlotSet

end ClusterScheduler
