import Mathlib.Data.List.Basic
import Mathlib.Data.List.TakeWhile
import ClusterScheduler.Word
import ClusterScheduler.Text.Basic

/-!
# Reading text back

The configuration reader trims lines, splits them at the first `=`, strips quotes and reads
decimal numbers. Each of these undoes what writing a value does, under side conditions on the
value: a line that neither starts nor ends with a blank is its own trimmed form
(`Text.trim_eq_self`), a value between quotes comes out whole unless it starts or ends with that
quote (`Text.trimChar_quoted`), and the decimal text of a value of a word reads back as that
value (`Word.parse_toString`). Text joined with line feeds splits back into its lines, up to what
a reading that skips empty lines and ignores trailing blanks cannot see
(`Text.filterMap_lines_intercalate`).
-/

namespace ClusterScheduler

namespace Text

/-! ## Trimming -/

theorem trimStart_blank_append {b l : List Char} (hb : ∀ x ∈ b, isBlank x = true) :
    trimStart (b ++ l) = trimStart l :=
  List.dropWhile_append_of_pos hb

theorem trimStart_cons_of_not_blank {c : Char} (l : List Char) (hc : isBlank c = false) :
    trimStart (c :: l) = c :: l :=
  List.dropWhile_cons_of_neg (by simp [hc])

theorem trim_append_blank {l e : List Char} (he : ∀ x ∈ e, isBlank x = true) :
    trim (l ++ e) = trim l := by
  unfold trim
  rw [List.reverse_append, trimStart_blank_append (fun x hx => he x (List.mem_reverse.1 hx))]

theorem trim_blank_append {b l : List Char} (hb : ∀ x ∈ b, isBlank x = true) :
    trim (b ++ l) = trim l := by
  unfold trim trimStart
  rw [List.reverse_append, List.dropWhile_append]
  split
  · -- the line is blank throughout: both sides trim to nothing
    rename_i hl
    rw [List.isEmpty_iff.1 hl, List.dropWhile_eq_nil_iff.2 (fun x hx => hb x (List.mem_reverse.1 hx))]
  · rw [List.reverse_append, List.reverse_reverse, List.dropWhile_append_of_pos hb]

theorem trim_eq_self {l : List Char} (hh : ∀ x ∈ l.head?, isBlank x = false)
    (hl : ∀ x ∈ l.getLast?, isBlank x = false) : trim l = l := by
  cases l with
  | nil => rfl
  | cons c r =>
    obtain ⟨q, x, hq⟩ : ∃ q x, c :: r = q ++ [x] :=
      ⟨_, _, (List.dropLast_concat_getLast (List.cons_ne_nil c r)).symm⟩
    have hx : isBlank x = false := hl x (by rw [hq, List.getLast?_concat]; rfl)
    unfold trim
    rw [hq, List.reverse_concat, trimStart_cons_of_not_blank _ hx, List.reverse_cons,
      List.reverse_reverse, ← hq, trimStart_cons_of_not_blank _ (hh c rfl)]

theorem exists_blank_trim_blank (l : List Char) :
    ∃ b e, (∀ x ∈ b, isBlank x = true) ∧ (∀ x ∈ e, isBlank x = true) ∧ l = b ++ trim l ++ e := by
  refine ⟨(trimStart l.reverse).reverse.takeWhile isBlank, (l.reverse.takeWhile isBlank).reverse,
    fun x hx => List.mem_takeWhile_imp hx, fun x hx => List.mem_takeWhile_imp (List.mem_reverse.1 hx), ?_⟩
  unfold trim trimStart
  rw [List.takeWhile_append_dropWhile, ← List.reverse_append, List.takeWhile_append_dropWhile,
    List.reverse_reverse]

theorem head?_trim_not_blank (l : List Char) : ∀ x ∈ (trim l).head?, isBlank x = false := by
  intro x hx
  have h := List.head?_dropWhile_not isBlank (trimStart l.reverse).reverse
  unfold trim at hx
  unfold trimStart at h hx
  rw [Option.mem_def] at hx
  rw [hx] at h
  exact h

theorem head?_trimStart (l : List Char) : (trimStart l).head? = (trim l).head? := by
  obtain ⟨b, e, hb, he, hl⟩ := exists_blank_trim_blank l
  have hstart : trimStart l = trimStart (trim l ++ e) := by
    conv_lhs => rw [hl]
    rw [List.append_assoc, trimStart_blank_append hb]
  rw [hstart]
  cases ht : trim l with
  | nil => exact congrArg List.head? (List.dropWhile_eq_nil_iff.2 he)
  | cons c r =>
    have hc : isBlank c = false := head?_trim_not_blank l c (by rw [ht]; rfl)
    rw [List.cons_append, trimStart_cons_of_not_blank _ hc]
    rfl

/-! ## Splitting at the first separator -/

theorem splitOnce_append {sep : Char} {a : List Char} (b : List Char) (ha : sep ∉ a) :
    splitOnce sep (a ++ sep :: b) = some (a, b) := by
  induction a with
  | nil => simp [splitOnce]
  | cons c a ih =>
    have hc : c ≠ sep := fun h => ha (h ▸ List.mem_cons_self)
    rw [List.cons_append, splitOnce, if_neg hc, ih (fun h => ha (List.mem_cons_of_mem c h))]
    rfl

theorem eq_of_splitOnce_eq_some {sep : Char} {l a b : List Char} (h : splitOnce sep l = some (a, b)) :
    l = a ++ sep :: b ∧ sep ∉ a := by
  induction l generalizing a with
  | nil => cases h
  | cons c l ih =>
    rw [splitOnce] at h
    split at h
    · rename_i hc
      cases h
      exact ⟨by rw [hc]; rfl, List.not_mem_nil⟩
    · rename_i hc
      obtain ⟨⟨a', b'⟩, h', hab⟩ := Option.map_eq_some_iff.1 h
      cases hab
      obtain ⟨rfl, ha'⟩ := ih h'
      exact ⟨rfl, fun hm => (List.mem_cons.1 hm).elim (fun e => hc e.symm) ha'⟩

/-! ## Stripping quotes -/

theorem trimChar_eq_self {q : Char} {v : List Char} (hh : v.head? ≠ some q)
    (hl : v.getLast? ≠ some q) : trimChar q v = v := by
  unfold trimChar
  cases v with
  | nil => rfl
  | cons c r =>
    obtain ⟨p, x, hpx⟩ : ∃ p x, c :: r = p ++ [x] :=
      ⟨_, _, (List.dropLast_concat_getLast (List.cons_ne_nil c r)).symm⟩
    have hx : x ≠ q := fun e => hl (by rw [hpx, List.getLast?_concat, e])
    have hc : c ≠ q := fun e => hh (by rw [e]; rfl)
    rw [List.dropWhile_cons_of_neg (by simpa using hc), hpx, List.reverse_concat,
      List.dropWhile_cons_of_neg (by simpa using hx), List.reverse_cons, List.reverse_reverse]

theorem trimChar_cons_self (q : Char) (l : List Char) : trimChar q (q :: l) = trimChar q l := by
  unfold trimChar
  rw [List.dropWhile_cons_of_pos (by simp)]

theorem trimChar_append_self (q : Char) (l : List Char) : trimChar q (l ++ [q]) = trimChar q l := by
  unfold trimChar
  rw [List.dropWhile_append]
  split
  · rename_i hl
    rw [List.isEmpty_iff.1 hl, List.dropWhile_cons_of_pos (by simp)]
    rfl
  · rw [List.reverse_concat, List.dropWhile_cons_of_pos (by simp)]

theorem trimChar_quoted {q : Char} {v : List Char} (hh : v.head? ≠ some q)
    (hl : v.getLast? ≠ some q) : trimChar q (q :: v ++ [q]) = v := by
  rw [List.cons_append, trimChar_cons_self, trimChar_append_self, trimChar_eq_self hh hl]

/-! ## Lines -/

section Lines

variable {α : Type} {f : List Char → Option α}

theorem read_dropCR (hcr : ∀ p, f (p ++ ['\r']) = f p) (b : Bool) (p : List Char) :
    f (if b = true then (if p.getLast? = some '\r' then p.dropLast else p) else p) = f p := by
  cases b
  · rfl
  · rw [if_pos rfl]
    split
    · rename_i h
      obtain ⟨q, rfl⟩ := List.getLast?_eq_some_iff.1 h
      rw [List.dropLast_concat, hcr]
    · rfl

/-- For a reading of lines that skips empty lines and ignores trailing blanks, the lines of a
text are its pieces between line feeds. -/
theorem filterMap_lines (hnil : f [] = none) (hcr : ∀ p, f (p ++ ['\r']) = f p) (cs : List Char) :
    (lines cs).filterMap f = (cs.splitOn '\n').filterMap f := by
  unfold lines
  dsimp only
  rw [List.filterMap_map, List.filterMap_congr (g := f ∘ Prod.fst) ?piece, ← List.filterMap_map,
    List.zipIdx_map_fst]
  case piece =>
    -- a piece loses at most a final carriage return
    intro x _
    exact read_dropCR hcr _ x.1
  -- the pieces left out are an empty last one, or the single empty piece of an empty text
  split
  · rename_i h
    rw [List.isEmpty_iff.1 h, List.splitOn_nil, List.filterMap_cons_none hnil]
  · split
    · rename_i h
      obtain ⟨cs', rfl⟩ := List.getLast?_eq_some_iff.1 h
      rw [List.splitOn_append_cons_self, List.splitOn_nil, List.dropLast_concat, List.filterMap_append,
        List.filterMap_cons_none hnil, List.filterMap_nil, List.append_nil]
    · rfl

theorem filterMap_lines_intercalate (hnil : f [] = none) (hcr : ∀ p, f (p ++ ['\r']) = f p)
    {ls : List (List Char)} (hnl : ∀ l ∈ ls, '\n' ∉ l) :
    (lines (['\n'].intercalate ls)).filterMap f = ls.filterMap f := by
  rw [filterMap_lines hnil hcr]
  cases ls with
  | nil =>
    rw [List.intercalate_nil, List.splitOn_nil, List.filterMap_cons_none hnil]
  | cons l ls => rw [List.splitOn_intercalate '\n' hnl (List.cons_ne_nil _ _)]

end Lines

end Text

/-! ## Decimal numbers -/

theorem foldl_digits_eq_ofDigitChars (l : List Char) :
    l.foldl (fun n d => n * 10 + (d.toNat - 48)) 0 = Nat.ofDigitChars 10 l 0 := by
  rw [Nat.ofDigitChars_eq_foldl]
  congr 1
  funext n d
  rw [Nat.mul_comm]
  rfl

theorem digitsValue_toDigits (n : Nat) : digitsValue (Nat.toDigits 10 n) = some n := by
  have hne : (Nat.toDigits 10 n).isEmpty = false :=
    List.isEmpty_eq_false_iff_exists_mem.2 (List.exists_mem_of_length_pos Nat.length_toDigits_pos)
  have hall : (Nat.toDigits 10 n).all Char.isDigit = true :=
    List.all_eq_true.2 fun c hc => Nat.isDigit_of_mem_toDigits (by decide) (by decide) hc
  rw [digitsValue, if_neg (by simp [hne, hall]), foldl_digits_eq_ofDigitChars,
    Nat.ofDigitChars_ten_toDigits]

theorem Word.parse_toString {w : Word} {t : Int} (h0 : 0 ≤ t) (hholds : w.holds t = true) :
    w.parse (toString t).toList = some t := by
  -- a decimal numeral starts with a digit, not with a sign
  have hdigit : ∀ c rest, Nat.toDigits 10 t.toNat = c :: rest → c.isDigit = true := fun c rest h =>
    Nat.isDigit_of_mem_toDigits (by decide) (by decide) (h ▸ List.mem_cons_self)
  rw [Int.toString_eq_repr, Int.repr_eq_if, if_pos h0, Nat.toList_repr]
  unfold Word.parse
  split
  rename_i neg ds hsplit
  split at hsplit
  · rename_i rest hd
    exact absurd (hdigit _ _ hd) (by decide)
  · rename_i rest hd
    exact absurd (hdigit _ _ hd) (by decide)
  · cases hsplit
    simp only [digitsValue_toDigits, Bool.false_eq_true, ↓reduceIte, Int.toNat_of_nonneg h0, hholds]

end ClusterScheduler
