import ClusterScheduler.Word

/-!
# Sets of resource ids

A set of resource ids is kept as its canonical list of spans: closed ranges `lo..=hi`, in
increasing order, none empty, and with at least one absent id between two neighbours. Every
operation builds its result through `normalize`, which sorts spans and absorbs those that touch;
`normalize_canonical` is the one fact that makes the proof field of `IdSet` hold. Membership is
the view: an id belongs to a set when one of its spans covers it.
-/

namespace ClusterScheduler

/-- A closed range `lo..=hi` of resource ids; it is empty when `hi < lo`. -/
structure Span where
  lo : Nat
  hi : Nat
  deriving DecidableEq, Repr

namespace Span

def Covers (s : Span) (x : Nat) : Prop := s.lo ≤ x ∧ x ≤ s.hi

def size (s : Span) : Nat := s.hi + 1 - s.lo

def meet (s t : Span) : Span := ⟨max s.lo t.lo, min s.hi t.hi⟩

def cut (s t : Span) : List Span :=
  (if s.lo < t.lo then [⟨s.lo, min s.hi (t.lo - 1)⟩] else []) ++
    (if t.hi < s.hi then [⟨max s.lo (t.hi + 1), s.hi⟩] else [])

def cutAll (s : Span) : List Span → List Span
  | [] => [s]
  | t :: ts => (s.cut t).flatMap (cutAll · ts)

end Span

def Canonical : List Span → Prop
  | [] => True
  | s :: rest => s.lo ≤ s.hi ∧ (∀ t ∈ rest.head?, s.hi + 1 < t.lo) ∧ Canonical rest

/-- Extends `cur` by the sorted spans that touch it, and starts a new span at the first that
does not. -/
def absorb (cur : Span) : List Span → List Span
  | [] => [cur]
  | s :: rest =>
    if s.lo ≤ cur.hi + 1 then absorb ⟨cur.lo, max cur.hi s.hi⟩ rest else cur :: absorb s rest

def insertSpan (s : Span) : List Span → List Span
  | [] => [s]
  | t :: rest => if s.lo ≤ t.lo then s :: t :: rest else t :: insertSpan s rest

def sortSpans : List Span → List Span
  | [] => []
  | s :: rest => insertSpan s (sortSpans rest)

theorem mem_insertSpan {s t : Span} {l : List Span} : t ∈ insertSpan s l ↔ t = s ∨ t ∈ l := by
  induction l with
  | nil => simp [insertSpan]
  | cons u rest ih =>
    unfold insertSpan
    split
    · exact List.mem_cons
    · simp only [List.mem_cons, ih, or_left_comm]

theorem pairwise_insertSpan {s : Span} {l : List Span}
    (h : l.Pairwise fun a b => a.lo ≤ b.lo) : (insertSpan s l).Pairwise fun a b => a.lo ≤ b.lo := by
  induction l with
  | nil => simp [insertSpan]
  | cons u rest ih =>
    obtain ⟨hu, hrest⟩ := List.pairwise_cons.1 h
    unfold insertSpan
    split
    · rename_i hsu
      refine List.pairwise_cons.2 ⟨fun t ht => ?_, h⟩
      rcases List.mem_cons.1 ht with rfl | ht
      · exact hsu
      · exact Nat.le_trans hsu (hu t ht)
    · rename_i hsu
      refine List.pairwise_cons.2 ⟨fun t ht => ?_, ih hrest⟩
      rcases mem_insertSpan.1 ht with rfl | ht
      · omega
      · exact hu t ht

theorem mem_sortSpans {t : Span} : ∀ {l : List Span}, t ∈ sortSpans l ↔ t ∈ l
  | [] => Iff.rfl
  | s :: rest => by rw [sortSpans, mem_insertSpan, mem_sortSpans, List.mem_cons]

theorem pairwise_sortSpans : ∀ l : List Span, (sortSpans l).Pairwise fun a b => a.lo ≤ b.lo
  | [] => List.Pairwise.nil
  | _ :: rest => pairwise_insertSpan (pairwise_sortSpans rest)

def normalize (spans : List Span) : List Span :=
  match sortSpans (spans.filter (fun s => decide (s.lo ≤ s.hi))) with
  | [] => []
  | s :: rest => absorb s rest

theorem head_absorb (cur : Span) (rest : List Span) :
    (absorb cur rest).head?.map Span.lo = some cur.lo := by
  induction rest generalizing cur with
  | nil => rfl
  | cons s rest ih =>
    unfold absorb
    split
    · exact ih _
    · rfl

theorem absorb_canonical (cur : Span) (rest : List Span) (hcur : cur.lo ≤ cur.hi)
    (hne : ∀ t ∈ rest, t.lo ≤ t.hi) (hsorted : rest.Pairwise (fun a b => a.lo ≤ b.lo))
    (hfirst : ∀ t ∈ rest, cur.lo ≤ t.lo) : Canonical (absorb cur rest) := by
  induction rest generalizing cur with
  | nil => exact ⟨hcur, by simp, trivial⟩
  | cons s rest ih =>
    have hs := hne s (by simp)
    have htail : ∀ t ∈ rest, t.lo ≤ t.hi := fun t ht => hne t (by simp [ht])
    have hsorted' := (List.pairwise_cons.1 hsorted).2
    have hsfirst := (List.pairwise_cons.1 hsorted).1
    unfold absorb
    split
    · apply ih _ (by simp; omega) htail hsorted'
      intro t ht
      exact hfirst t (by simp [ht])
    · rename_i hgap
      refine ⟨hcur, ?_, ih s hs htail hsorted' hsfirst⟩
      intro t ht
      have hh := head_absorb s rest
      rw [ht] at hh
      simp at hh
      omega

theorem normalize_canonical (spans : List Span) : Canonical (normalize spans) := by
  unfold normalize
  split
  · trivial
  · rename_i s rest hsort
    have hpw := pairwise_sortSpans (spans.filter (fun s => decide (s.lo ≤ s.hi)))
    rw [hsort] at hpw
    have hmem : ∀ t ∈ s :: rest, t.lo ≤ t.hi := by
      intro t ht
      rw [← hsort, mem_sortSpans, List.mem_filter] at ht
      simpa using ht.2
    obtain ⟨hhead, htail⟩ := List.pairwise_cons.1 hpw
    exact absorb_canonical s rest (hmem s (by simp)) (fun t ht => hmem t (by simp [ht])) htail
      hhead

/-- A set of resource ids, as its canonical spans. -/
structure IdSet where
  spans : List Span
  canonical : Canonical spans

namespace IdSet

instance : DecidableEq IdSet := fun a b =>
  if h : a.spans = b.spans then
    isTrue (by cases a; cases b; simp at h; subst h; rfl)
  else
    isFalse (fun e => h (e ▸ rfl))

def ofSpans (spans : List Span) : IdSet := ⟨normalize spans, normalize_canonical spans⟩

def empty : IdSet := ⟨[], trivial⟩

instance : EmptyCollection IdSet := ⟨empty⟩
instance : Inhabited IdSet := ⟨empty⟩

def ofIds (ids : List Nat) : IdSet := ofSpans (ids.map fun i => ⟨i, i⟩)

def range (lo hi : Nat) : IdSet := ofSpans [⟨lo, hi⟩]

def Mem (s : IdSet) (x : Nat) : Prop := ∃ sp ∈ s.spans, sp.Covers x

instance : Membership Nat IdSet := ⟨Mem⟩

def union (a b : IdSet) : IdSet := ofSpans (a.spans ++ b.spans)

def inter (a b : IdSet) : IdSet := ofSpans (a.spans.flatMap fun s => b.spans.map s.meet)

def diff (a b : IdSet) : IdSet := ofSpans (a.spans.flatMap (·.cutAll b.spans))

instance : Union IdSet := ⟨union⟩
instance : Inter IdSet := ⟨inter⟩
instance : SDiff IdSet := ⟨diff⟩

def isEmpty (s : IdSet) : Bool := s.spans.isEmpty

def card (s : IdSet) : Nat := s.spans.foldr (fun sp n => sp.size + n) 0

def min? (s : IdSet) : Option Nat := s.spans.head?.map Span.lo

def subset (a b : IdSet) : Bool := (a \ b).isEmpty

def overlaps (a b : IdSet) : Bool := !(a ∩ b).isEmpty

def toList (s : IdSet) : List Nat := s.spans.flatMap fun sp => List.range' sp.lo sp.size

def idsBelow (s : IdSet) (n : Nat) : List Nat :=
  if n = 0 then [] else (s ∩ range 0 (n - 1)).toList

def render (s : IdSet) : String :=
  ", ".intercalate (s.spans.map fun sp => s!"{sp.lo}..={sp.hi}")

end IdSet

/-! ## Taking ids from a set

Ids are 32-bit unsigned words, and so is the size of a span as the matchers compute it: the
span `0..=4294967295` holds one id more than a 32-bit word can count, and measuring it is an
overflow. `firstN` takes the lowest ids of a set, measuring only the spans it reaches.
-/

namespace Span

def size32 (s : Span) : Except Fault Nat :=
  if s.size ≤ Word.u32.hi.toNat then .ok s.size else .error .addOverflow

end Span

namespace IdSet

/-- The lowest spans of `spans` holding `remaining` ids in all, the last one shortened. A span is
measured only when ids are still wanted from it. -/
def takeLow : List Span → Nat → Except Fault (List Span)
  | [], _ => .ok []
  | sp :: rest, remaining =>
    if remaining = 0 then .ok []
    else do
      let size ← sp.size32
      if size ≤ remaining then
        let tail ← takeLow rest (remaining - size)
        pure (sp :: tail)
      else
        pure [⟨sp.lo, sp.lo + remaining - 1⟩]

def firstN (s : IdSet) (count : Nat) : Except Fault (Option IdSet) :=
  if s.card < count then .ok none
  else do
    let spans ← takeLow s.spans count
    pure (some (ofSpans spans))

end IdSet

end ClusterScheduler
