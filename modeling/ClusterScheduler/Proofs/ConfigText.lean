import ClusterScheduler.Proofs.TextReading
import ClusterScheduler.Config

/-!
# Reading the configuration file back

A configuration is written as one `KEY="value"` line per scheduler key (`Config.render`).
Reading that text gives the configuration back whenever its values survive the quoting: the
security time is a 64-bit value that is not negative, and the text values are on one line and
neither start nor end with a quote (`Config.Writable`). Lines the reader skips may stand anywhere
between the written ones: blank lines, comments, lines without `=` and lines for other keys
(`Config.skipsLine`). A key set twice takes its last value: a valid setting that a later line of
the same key follows can be dropped without changing what is read.

Each setting writes one field of the configuration, or nothing for another key (`Config.Write`).
Writes of different fields commute and a write hides an earlier one of the same field; the law of
the last value follows from these two.
-/

namespace ClusterScheduler

namespace Config

def keys : List String :=
  ["SCHEDULER_JOB_SECURITY_TIME", "HIERARCHY_LABELS", "SCHEDULER_RESOURCE_ORDER",
    "SCHEDULER_AVAILABLE_SUSPENDED_RESOURCE_TYPE", "CACHE_ENABLED", "JOB_PRIORITY"]

theorem keys_plain : ∀ k ∈ keys, k.toList ≠ [] ∧ '=' ∉ k.toList ∧
    ∀ x ∈ k.toList, Text.isBlank x = false ∧ x ≠ '#' := by
  have hword : ∀ k ∈ keys, k.toList ≠ [] ∧ '=' ∉ k.toList := by decide
  -- the characters are checked with List.all: a bounded quantifier over characters is decided
  -- by going through every character there is
  have hchars : keys.all (fun k => k.toList.all fun x => !Text.isBlank x && x != '#') := by
    decide
  intro k hk
  refine ⟨(hword k hk).1, (hword k hk).2, fun x hx => ?_⟩
  simpa using List.all_eq_true.1 (List.all_eq_true.1 hchars k hk) x hx

/-! ## What a setting writes -/

/-- The field a setting writes, with the value read for it; a key the scheduler does not read
writes nothing. -/
inductive Write where
  | securityTime (t : Int)
  | hierarchyLabels (s : String)
  | resourceOrder (s : String)
  | suspendableTypes (s : String)
  | cacheEnabled (b : Bool)
  | jobPriority (p : JobPriority)
  | nothing

namespace Write

def apply : Write → Config → Config
  | .securityTime t, c => { c with securityTime := t }
  | .hierarchyLabels s, c => { c with hierarchyLabels := s }
  | .resourceOrder s, c => { c with resourceOrder := s }
  | .suspendableTypes s, c => { c with suspendableTypes := s }
  | .cacheEnabled b, c => { c with cacheEnabled := b }
  | .jobPriority p, c => { c with jobPriority := p }
  | .nothing, c => c

def slot : Write → Nat
  | .securityTime _ => 0
  | .hierarchyLabels _ => 1
  | .resourceOrder _ => 2
  | .suspendableTypes _ => 3
  | .cacheEnabled _ => 4
  | .jobPriority _ => 5
  | .nothing => 6

theorem apply_apply_of_slot_eq {w w' : Write} (h : w.slot = w'.slot) (c : Config) :
    w'.apply (w.apply c) = w'.apply c := by
  cases w <;> cases w' <;> simp [slot, apply] at h ⊢

theorem apply_comm {w w' : Write} (h : w.slot ≠ w'.slot) (c : Config) :
    w.apply (w'.apply c) = w'.apply (w.apply c) := by
  cases w <;> cases w' <;> simp [slot, apply] at h ⊢

end Write

def write (key value : String) : Except ConfigError Write :=
  let invalid : ConfigError := .invalidValue key value
  match key with
  | "SCHEDULER_JOB_SECURITY_TIME" =>
    match Word.i64.parse value.toList with
    | some t => if 0 ≤ t then .ok (.securityTime t) else .error invalid
    | none => .error invalid
  | "HIERARCHY_LABELS" => .ok (.hierarchyLabels value)
  | "SCHEDULER_RESOURCE_ORDER" => .ok (.resourceOrder value)
  | "SCHEDULER_AVAILABLE_SUSPENDED_RESOURCE_TYPE" => .ok (.suspendableTypes value)
  | "CACHE_ENABLED" =>
    match String.ofList (Text.lowerAscii value.toList) with
    | "yes" | "true" | "1" => .ok (.cacheEnabled true)
    | "no" | "false" | "0" => .ok (.cacheEnabled false)
    | _ => .error invalid
  | "JOB_PRIORITY" => (JobPriority.parse value).map .jobPriority
  | _ => .ok .nothing

theorem set_eq_write (c : Config) (key value : String) :
    c.set key value = (write key value).map (·.apply c) := by
  unfold set write
  split
  · -- the security time: a number that is not negative
    cases Word.i64.parse value.toList with
    | none => rfl
    | some t => by_cases h0 : 0 ≤ t <;> simp [h0, Except.map, Write.apply]
  · rfl
  · rfl
  · rfl
  · -- the cache: yes or no, in any case
    generalize String.ofList (Text.lowerAscii value.toList) = s
    split
    case h_7 =>
      -- a text neither accepts: its match reduces under the texts ruled out
      simp_all [Except.map]
    all_goals rfl
  · cases JobPriority.parse value <;> rfl
  · -- another key: neither changes the configuration
    simp_all [Except.map, Write.apply]

theorem write_of_not_mem_keys {key : String} (hk : key ∉ keys) (value : String) :
    write key value = .ok .nothing := by
  unfold write
  split
  case h_7 => rfl
  all_goals simp [keys] at hk

theorem set_of_not_mem_keys {key : String} (hk : key ∉ keys) (c : Config) (value : String) :
    c.set key value = .ok c := by
  rw [set_eq_write, write_of_not_mem_keys hk]
  rfl

theorem slot_of_write {key value : String} {w : Write} (h : write key value = .ok w) :
    w.slot = keys.idxOf key := by
  by_cases hk : key ∈ keys
  · simp only [keys, List.mem_cons, List.not_mem_nil, or_false] at hk
    rcases hk with rfl | rfl | rfl | rfl | rfl | rfl <;> simp only [write] at h
    · -- the security time is written when it is a number that is not negative
      split at h
      · split at h
        · cases h
          rfl
        · cases h
      · cases h
    · cases h
      rfl
    · cases h
      rfl
    · cases h
      rfl
    · split at h <;> cases h <;> rfl
    · cases hp : JobPriority.parse value <;> rw [hp] at h <;> cases h
      rfl
  · rw [write_of_not_mem_keys hk] at h
    cases h
    exact (List.idxOf_eq_length hk).symm

/-! ## Writing a configuration -/

/-- The scheduler's keys with their values as the file writes them: the security time in
decimal, the cache as `yes` or `no`, the order by its name. -/
def settings (c : Config) : List (String × String) :=
  [("SCHEDULER_JOB_SECURITY_TIME", toString c.securityTime),
    ("HIERARCHY_LABELS", c.hierarchyLabels),
    ("SCHEDULER_RESOURCE_ORDER", c.resourceOrder),
    ("SCHEDULER_AVAILABLE_SUSPENDED_RESOURCE_TYPE", c.suspendableTypes),
    ("CACHE_ENABLED", if c.cacheEnabled then "yes" else "no"),
    ("JOB_PRIORITY", c.jobPriority.key)]

def settingLine (key value : String) : String := key ++ "=\"" ++ value ++ "\""

def renderLines (c : Config) : List String := c.settings.map fun kv => settingLine kv.1 kv.2

def render (c : Config) : String := "\n".intercalate c.renderLines

theorem settingLine_toList (key value : String) :
    (settingLine key value).toList = key.toList ++ '=' :: ('"' :: value.toList ++ ['"']) := by
  simp [settingLine]

/-- A text the file holds between double quotes and gives back: on one line, neither starting
nor ending with a quote. -/
structure Quotable (s : String) : Prop where
  no_line_feed : '\n' ∉ s.toList
  head_not_quote : ∀ x ∈ s.toList.head?, x ≠ '"' ∧ x ≠ '\''
  last_not_quote : ∀ x ∈ s.toList.getLast?, x ≠ '"' ∧ x ≠ '\''

theorem Quotable.of_forall {s : String} (h : ∀ x ∈ s.toList, x ≠ '\n' ∧ x ≠ '"' ∧ x ≠ '\'') :
    Quotable s :=
  ⟨fun hm => (h _ hm).1 rfl, fun x hx => (h x (List.mem_of_mem_head? hx)).2,
    fun x hx => (h x (List.mem_of_mem_getLast? hx)).2⟩

theorem Quotable.of_all {s : String}
    (h : s.toList.all (fun x => x != '\n' && x != '"' && x != '\'')) : Quotable s :=
  of_forall fun x hx => by simpa [and_assoc] using List.all_eq_true.1 h x hx

/-- A configuration the file can hold: a security time that is a 64-bit value and not negative,
and texts the file can quote. -/
structure Writable (c : Config) : Prop where
  securityTime_nonneg : 0 ≤ c.securityTime
  securityTime_le : c.securityTime ≤ maxI64
  hierarchyLabels : Quotable c.hierarchyLabels
  resourceOrder : Quotable c.resourceOrder
  suspendableTypes : Quotable c.suspendableTypes

theorem quotable_toString {t : Int} (h0 : 0 ≤ t) : Quotable (toString t) := by
  refine Quotable.of_forall fun x hx => ?_
  rw [Int.toString_eq_repr, Int.repr_eq_if, if_pos h0, Nat.toList_repr] at hx
  have hd := Nat.isDigit_of_mem_toDigits (by decide) (by decide) hx
  refine ⟨?_, ?_, ?_⟩ <;> rintro rfl <;> exact absurd hd (by decide)

theorem settings_quotable {c : Config} (hc : c.Writable) :
    ∀ kv ∈ c.settings, kv.1 ∈ keys ∧ Quotable kv.2 := by
  have hcache : Quotable (if c.cacheEnabled then "yes" else "no") := by
    cases c.cacheEnabled <;> exact Quotable.of_all (by decide)
  have hprio : Quotable c.jobPriority.key := by
    cases c.jobPriority <;> exact Quotable.of_all (by decide)
  simp only [settings, List.mem_cons, List.not_mem_nil, or_false]
  rintro kv (rfl | rfl | rfl | rfl | rfl | rfl)
  · exact ⟨by simp [keys], quotable_toString hc.securityTime_nonneg⟩
  · exact ⟨by simp [keys], hc.hierarchyLabels⟩
  · exact ⟨by simp [keys], hc.resourceOrder⟩
  · exact ⟨by simp [keys], hc.suspendableTypes⟩
  · exact ⟨by simp [keys], hcache⟩
  · exact ⟨by simp [keys], hprio⟩

theorem foldlM_set_settings {c : Config} (hc : c.Writable) (d : Config) :
    c.settings.foldlM (fun d kv => d.set kv.1 kv.2) d = .ok c := by
  have htime : Word.i64.parse (toString c.securityTime).toList = some c.securityTime := by
    refine Word.parse_toString hc.securityTime_nonneg ?_
    have hmax := hc.securityTime_le
    unfold maxI64 at hmax
    simp only [Word.holds, Word.i64]
    exact decide_eq_true ⟨by have := hc.securityTime_nonneg; omega, hmax⟩
  have hwtime : write "SCHEDULER_JOB_SECURITY_TIME" (toString c.securityTime) =
      .ok (.securityTime c.securityTime) := by
    simp only [write, htime, hc.securityTime_nonneg, ↓reduceIte]
  have hcache : write "CACHE_ENABLED" (if c.cacheEnabled then "yes" else "no") =
      .ok (.cacheEnabled c.cacheEnabled) := by
    cases c.cacheEnabled <;> rfl
  have hprio : write "JOB_PRIORITY" c.jobPriority.key = .ok (.jobPriority c.jobPriority) := by
    cases c.jobPriority <;> rfl
  -- the other keys' values are read as they are; the six writes rebuild every field
  simp only [settings, List.foldlM_cons, List.foldlM_nil, set_eq_write, hwtime, hcache, hprio]
  rfl

/-! ## Reading lines -/

/-- Whether the reader skips a line: a blank line, a comment (its first non-blank character is
`#`), a line without `=`, or a line for another key (the text before its first `=`, trimmed, is
none of `keys`). -/
def skipsLine (line : List Char) : Bool :=
  line.all Text.isBlank || (Text.trimStart line).head? == some '#' || !line.contains '=' ||
    !keys.contains (String.ofList (Text.trim (line.takeWhile (· != '='))))

theorem lineSetting_nil : lineSetting [] = none := rfl

theorem lineSetting_append_cr (p : List Char) : lineSetting (p ++ ['\r']) = lineSetting p := by
  unfold lineSetting
  rw [Text.trim_append_blank (List.forall_mem_singleton.2 rfl)]

theorem lineSetting_eq_some {line : List Char} {key value : String}
    (h : lineSetting line = some (key, value)) :
    ∃ k v, Text.trim line = k ++ '=' :: v ∧ '=' ∉ k ∧ (Text.trim line).head? ≠ some '#' ∧
      key = String.ofList (Text.trim k) := by
  unfold lineSetting at h
  dsimp only at h
  split at h
  · cases h
  · rename_i hne
    split at h
    · rename_i k v hsplit
      cases h
      obtain ⟨hkv, hk⟩ := Text.eq_of_splitOnce_eq_some hsplit
      exact ⟨k, v, hkv, hk, fun hh => hne (Or.inr hh), rfl⟩
    · cases h

theorem not_mem_keys_of_skipsLine {line : List Char} (hskip : skipsLine line = true)
    {key value : String} (h : lineSetting line = some (key, value)) : key ∉ keys := by
  obtain ⟨k, v, ht, hk, hhash, rfl⟩ := lineSetting_eq_some h
  obtain ⟨b, e, hb, he, hline⟩ := Text.exists_blank_trim_blank line
  rw [ht] at hline
  have heq : '=' ∈ line := by
    rw [hline]
    simp
  simp only [skipsLine, Bool.or_eq_true] at hskip
  rcases hskip with ((hblank | hcomment) | hnoeq) | hother
  · -- a blank line has no `=`
    exact absurd (List.all_eq_true.1 hblank '=' heq) (by decide)
  · -- the first non-blank character starts the trimmed line
    rw [beq_iff_eq, Text.head?_trimStart] at hcomment
    exact absurd hcomment hhash
  · exact absurd (List.contains_iff_mem.2 heq) (by simpa using hnoeq)
  · -- before the first `=` come the leading blanks, then the key
    have hbeq : ∀ x ∈ b, (x != '=') = true := fun x hx => by
      have hblank := hb x hx
      simp only [bne_iff_ne, ne_eq]
      rintro rfl
      exact absurd hblank (by decide)
    have hkeq : ∀ x ∈ k, (x != '=') = true := fun x hx => by
      simp only [bne_iff_ne, ne_eq]
      rintro rfl
      exact hk hx
    have htake : line.takeWhile (· != '=') = b ++ k := by
      rw [hline, List.append_assoc, List.takeWhile_append_of_pos hbeq, List.append_assoc,
        List.takeWhile_append_of_pos hkeq, List.cons_append, List.takeWhile_cons_of_neg (by simp),
        List.append_nil]
    rw [htake, Text.trim_blank_append hb] at hother
    simpa using hother

theorem exists_head_of_key {key : String} (hkey : key ∈ keys) :
    ∃ c r, key.toList = c :: r ∧ Text.isBlank c = false ∧ c ≠ '#' := by
  obtain ⟨hne, -, hchars⟩ := keys_plain key hkey
  obtain ⟨c, r, hcr⟩ := List.exists_cons_of_ne_nil hne
  exact ⟨c, r, hcr, hchars c (by rw [hcr]; exact List.mem_cons_self)⟩

theorem trim_key {key : String} (hkey : key ∈ keys) : Text.trim key.toList = key.toList := by
  obtain ⟨-, -, hchars⟩ := keys_plain key hkey
  exact Text.trim_eq_self (fun x hx => (hchars x (List.mem_of_mem_head? hx)).1)
    (fun x hx => (hchars x (List.mem_of_mem_getLast? hx)).1)

theorem trim_settingLine {key : String} (hkey : key ∈ keys) (value : String) :
    Text.trim (settingLine key value).toList = (settingLine key value).toList := by
  obtain ⟨c, r, hcr, hc, -⟩ := exists_head_of_key hkey
  have hline := settingLine_toList key value
  refine Text.trim_eq_self (fun x hx => ?_) (fun x hx => ?_)
  · rw [hline, hcr] at hx
    cases hx
    exact hc
  · rw [hline, ← List.cons_append, ← List.append_assoc, List.getLast?_concat] at hx
    cases hx
    decide

theorem Quotable.unquote {value : String} (hv : Quotable value) :
    Text.trimChar '\'' (Text.trimChar '"' (Text.trim ('"' :: value.toList ++ ['"']))) =
      value.toList := by
  -- a quote is not blank, so trimming leaves the quoted value as it is
  have hquoted : Text.trim ('"' :: value.toList ++ ['"']) = '"' :: value.toList ++ ['"'] := by
    refine Text.trim_eq_self (fun x hx => ?_) (fun x hx => ?_)
    · cases hx
      decide
    · rw [List.getLast?_concat] at hx
      cases hx
      decide
  have hh := hv.head_not_quote
  have hl := hv.last_not_quote
  rw [hquoted, Text.trimChar_quoted (fun h => (hh '"' h).1 rfl) (fun h => (hl '"' h).1 rfl),
    Text.trimChar_eq_self (fun h => (hh _ h).2 rfl) (fun h => (hl _ h).2 rfl)]

theorem lineSetting_settingLine {key value : String} (hkey : key ∈ keys) (hv : Quotable value) :
    lineSetting (settingLine key value).toList = some (key, value) := by
  obtain ⟨-, hnoeq, -⟩ := keys_plain key hkey
  obtain ⟨c, r, hcr, -, hhash⟩ := exists_head_of_key hkey
  have hline := settingLine_toList key value
  -- the line is neither empty nor a comment: it starts with the key's first character
  have hcond : ¬((settingLine key value).toList.isEmpty = true ∨
      (settingLine key value).toList.head? = some '#') := by
    rw [hline, hcr]
    rintro (h | h)
    · cases h
    · cases h
      exact hhash rfl
  unfold lineSetting
  dsimp only
  rw [trim_settingLine hkey, if_neg hcond, hline, Text.splitOnce_append _ hnoeq]
  dsimp only
  rw [hv.unquote, trim_key hkey, String.ofList_toList, String.ofList_toList]

theorem skipsLine_settingLine {key value : String} (hkey : key ∈ keys) (hv : Quotable value) :
    skipsLine (settingLine key value).toList = false := by
  cases hskip : skipsLine (settingLine key value).toList with
  | false => rfl
  | true => exact absurd hkey (not_mem_keys_of_skipsLine hskip (lineSetting_settingLine hkey hv))

/-! ## Reading a file -/

theorem ofText_eq_foldlM (text : String) :
    ofText text =
      ((Text.lines text.toList).filterMap lineSetting).foldlM (fun c kv => c.set kv.1 kv.2) {} := by
  unfold ofText
  generalize Text.lines text.toList = ls
  generalize ({} : Config) = c
  induction ls generalizing c with
  | nil => rfl
  | cons line ls ih =>
    rw [List.foldlM_cons, List.filterMap_cons]
    cases h : lineSetting line with
    | none => exact ih c
    | some kv =>
      obtain ⟨k, v⟩ := kv
      rw [List.foldlM_cons]
      exact congrArg (fun f => c.set k v >>= f) (funext ih)

theorem ofText_intercalate {ls : List String} (hnl : ∀ l ∈ ls, '\n' ∉ l.toList) :
    ofText ("\n".intercalate ls) =
      ((ls.map String.toList).filterMap lineSetting).foldlM (fun c kv => c.set kv.1 kv.2) {} := by
  rw [ofText_eq_foldlM, String.toList_intercalate, show "\n".toList = ['\n'] from rfl,
    Text.filterMap_lines_intercalate lineSetting_nil lineSetting_append_cr (by simpa using hnl)]

theorem foldlM_filterMap_skipped (ls : List (List Char)) (c : Config) :
    (ls.filterMap lineSetting).foldlM (fun c kv => c.set kv.1 kv.2) c =
      ((ls.filter (!skipsLine ·)).filterMap lineSetting).foldlM (fun c kv => c.set kv.1 kv.2) c := by
  induction ls generalizing c with
  | nil => rfl
  | cons line ls ih =>
    by_cases hskip : skipsLine line = true
    · -- a skipped line sets nothing, or a key the scheduler does not read
      rw [List.filter_cons_of_neg (by simp [hskip]), ← ih]
      cases h : lineSetting line with
      | none => rw [List.filterMap_cons_none h]
      | some kv =>
        obtain ⟨k, v⟩ := kv
        rw [List.filterMap_cons_some h, List.foldlM_cons,
          set_of_not_mem_keys (not_mem_keys_of_skipsLine hskip h)]
        rfl
    · rw [List.filter_cons_of_pos (by simpa using hskip)]
      cases h : lineSetting line with
      | none => rw [List.filterMap_cons_none h, List.filterMap_cons_none h, ih]
      | some kv =>
        rw [List.filterMap_cons_some h, List.filterMap_cons_some h, List.foldlM_cons,
          List.foldlM_cons]
        exact congrArg (fun f => c.set kv.1 kv.2 >>= f) (funext ih)

theorem filterMap_renderLines {c : Config} (hc : c.Writable) :
    (c.renderLines.map String.toList).filterMap lineSetting = c.settings := by
  rw [renderLines, List.map_map, List.filterMap_map]
  conv_rhs => rw [← @List.filterMap_some _ c.settings]
  refine List.filterMap_congr fun kv hkv => ?_
  obtain ⟨hkey, hv⟩ := settings_quotable hc kv hkv
  simp only [Function.comp_apply]
  rw [lineSetting_settingLine hkey hv]

theorem settingLine_no_line_feed {key value : String} (hkey : key ∈ keys) (hv : Quotable value) :
    '\n' ∉ (settingLine key value).toList := by
  obtain ⟨-, -, hchars⟩ := keys_plain key hkey
  rw [settingLine_toList]
  intro h
  -- the key has no blank, the value no line feed, and the rest is `=` and quotes
  rcases List.mem_append.1 h with h | h
  · exact absurd (hchars _ h).1 (by decide)
  rcases List.mem_cons.1 h with h | h
  · exact absurd h (by decide)
  rcases List.mem_append.1 h with h | h
  · rcases List.mem_cons.1 h with h | h
    · exact absurd h (by decide)
    · exact hv.no_line_feed h
  · exact absurd (List.mem_singleton.1 h) (by decide)

theorem ofText_interleaved {c : Config} (hc : c.Writable) {ls : List String}
    (hnl : ∀ l ∈ ls, '\n' ∉ l.toList)
    (hls : ls.filter (fun l => !skipsLine l.toList) = c.renderLines) :
    ofText ("\n".intercalate ls) = .ok c := by
  rw [ofText_intercalate hnl, foldlM_filterMap_skipped, List.filter_map]
  change ((List.map String.toList (ls.filter fun l => !skipsLine l.toList)).filterMap
    lineSetting).foldlM _ _ = _
  rw [hls, filterMap_renderLines hc, foldlM_set_settings hc]

theorem renderLines_no_line_feed {c : Config} (hc : c.Writable) :
    ∀ l ∈ c.renderLines, '\n' ∉ l.toList := by
  intro l hl
  obtain ⟨kv, hkv, rfl⟩ := List.mem_map.1 hl
  obtain ⟨hkey, hv⟩ := settings_quotable hc kv hkv
  exact settingLine_no_line_feed hkey hv

theorem filter_renderLines {c : Config} (hc : c.Writable) :
    c.renderLines.filter (fun l => !skipsLine l.toList) = c.renderLines := by
  refine List.filter_eq_self.2 fun l hl => ?_
  obtain ⟨kv, hkv, rfl⟩ := List.mem_map.1 hl
  obtain ⟨hkey, hv⟩ := settings_quotable hc kv hkv
  rw [skipsLine_settingLine hkey hv]
  rfl

theorem ofText_render {c : Config} (hc : c.Writable) : ofText c.render = .ok c :=
  ofText_interleaved hc (renderLines_no_line_feed hc) (filter_renderLines hc)

/-! ## The last value wins -/

theorem exists_set_eq_ok {c : Config} {key value : String} (h : ∃ d, c.set key value = .ok d)
    (c' : Config) : ∃ d', c'.set key value = .ok d' := by
  obtain ⟨d, hd⟩ := h
  rw [set_eq_write] at hd ⊢
  cases hw : write key value with
  | error e =>
    rw [hw] at hd
    cases hd
  | ok w => exact ⟨w.apply c', rfl⟩

theorem foldlM_apply_hidden {key value : String} {w : Write} (hw : write key value = .ok w)
    (hkey : key ∈ keys) {S : List (String × String)} (hS : ∃ value', (key, value') ∈ S)
    (c : Config) :
    S.foldlM (fun d kv => d.set kv.1 kv.2) (w.apply c) =
      S.foldlM (fun d kv => d.set kv.1 kv.2) c := by
  induction S generalizing c with
  | nil =>
    obtain ⟨_, h⟩ := hS
    cases h
  | cons kv S ih =>
    obtain ⟨k₁, v₁⟩ := kv
    rw [List.foldlM_cons, List.foldlM_cons, set_eq_write, set_eq_write]
    cases hw₁ : write k₁ v₁ with
    | error e => rfl
    | ok w₁ =>
      change S.foldlM _ (w₁.apply (w.apply c)) = S.foldlM _ (w₁.apply c)
      by_cases hk : k₁ = key
      · subst hk
        rw [Write.apply_apply_of_slot_eq (by rw [slot_of_write hw, slot_of_write hw₁])]
      · have hS' : ∃ value', (key, value') ∈ S := by
          obtain ⟨value', h⟩ := hS
          rcases List.mem_cons.1 h with h | h
          · cases h
            exact absurd rfl hk
          · exact ⟨value', h⟩
        have hslot : w.slot ≠ w₁.slot := by
          rw [slot_of_write hw, slot_of_write hw₁]
          exact fun h => hk ((List.idxOf_inj hkey).1 h).symm
        rw [← Write.apply_comm hslot]
        exact ih hS' _

theorem foldlM_set_hidden {key value : String} {c c₁ : Config} (hc : c.set key value = .ok c₁) :
    ∀ {S : List (String × String)}, (∃ value', (key, value') ∈ S) →
      S.foldlM (fun d kv => d.set kv.1 kv.2) c₁ = S.foldlM (fun d kv => d.set kv.1 kv.2) c := by
  intro S hS
  rw [set_eq_write] at hc
  cases hw : write key value with
  | error e =>
    rw [hw] at hc
    cases hc
  | ok w =>
    rw [hw] at hc
    cases hc
    by_cases hkey : key ∈ keys
    · exact foldlM_apply_hidden hw hkey hS c
    · -- a key the scheduler does not read wrote nothing
      rw [write_of_not_mem_keys hkey] at hw
      cases hw
      rfl

theorem ofText_drop_hidden {pre post : List String} {l : String} {key value : String}
    (hnl : ∀ x ∈ pre ++ l :: post, '\n' ∉ x.toList)
    (hl : lineSetting l.toList = some (key, value))
    (hvalid : ∃ d, ({} : Config).set key value = .ok d)
    (hlater : ∃ l' ∈ post, ∃ value', lineSetting l'.toList = some (key, value')) :
    ofText ("\n".intercalate (pre ++ l :: post)) = ofText ("\n".intercalate (pre ++ post)) := by
  have hnl' : ∀ x ∈ pre ++ post, '\n' ∉ x.toList := fun x hx =>
    hnl x (List.mem_append.2 ((List.mem_append.1 hx).imp id (List.mem_cons_of_mem l)))
  have hS : ∃ value', (key, value') ∈ (post.map String.toList).filterMap lineSetting := by
    obtain ⟨l', hl', value', h⟩ := hlater
    exact ⟨value', List.mem_filterMap.2 ⟨l'.toList, List.mem_map_of_mem hl', h⟩⟩
  rw [ofText_intercalate hnl, ofText_intercalate hnl', List.map_append, List.map_append,
    List.filterMap_append, List.filterMap_append, List.map_cons, List.filterMap_cons_some hl,
    List.foldlM_append, List.foldlM_append]
  -- the files agree up to the dropped line; from there a later line of its key hides it
  congr 1
  funext c
  obtain ⟨c₁, hc₁⟩ := exists_set_eq_ok hvalid c
  rw [List.foldlM_cons, hc₁]
  exact foldlM_set_hidden hc₁ hS

/-- The configuration file reads back what it writes. A configuration the file can hold is read
back from its written form, and from any text holding its written lines in order among lines the
reader skips. A key set several times takes its last value: an earlier valid setting of a key that
a later line sets again can be dropped. -/
theorem ofText_reads_back :
    (∀ c : Config, c.Writable → ofText c.render = .ok c) ∧
    (∀ (c : Config) (ls : List String), c.Writable → (∀ l ∈ ls, '\n' ∉ l.toList) →
      ls.filter (fun l => !skipsLine l.toList) = c.renderLines →
      ofText ("\n".intercalate ls) = .ok c) ∧
    (∀ (pre post : List String) (l key value : String),
      (∀ x ∈ pre ++ l :: post, '\n' ∉ x.toList) → lineSetting l.toList = some (key, value) →
      (∃ d, ({} : Config).set key value = .ok d) →
      (∃ l' ∈ post, ∃ value', lineSetting l'.toList = some (key, value')) →
      ofText ("\n".intercalate (pre ++ l :: post)) = ofText ("\n".intercalate (pre ++ post))) :=
  ⟨fun _ hc => ofText_render hc, fun _ _ hc hnl hls => ofText_interleaved hc hnl hls,
    fun _ _ _ _ _ hnl hl hvalid hlater => ofText_drop_hidden hnl hl hvalid hlater⟩

theorem ofText_reads_back_defaults :
    ({} : Config).Writable ∧ ofText ({} : Config).render = .ok {} ∧
    ofText ("\n".intercalate ("# local changes" :: ({} : Config).renderLines)) = .ok {} ∧
    ofText ("\n".intercalate
        ["CACHE_ENABLED=no", "JOB_PRIORITY=KARMA", "# later", "JOB_PRIORITY=\"PRIORITY\""]) =
      ofText ("\n".intercalate ["CACHE_ENABLED=no", "# later", "JOB_PRIORITY=\"PRIORITY\""]) := by
  have hc : ({} : Config).Writable := ⟨by decide, by decide, Quotable.of_all (by decide),
    Quotable.of_all (by decide), Quotable.of_all (by decide)⟩
  have hnl : ∀ l ∈ "# local changes" :: ({} : Config).renderLines, '\n' ∉ l.toList := by
    intro l hl
    rcases List.mem_cons.1 hl with rfl | hl
    · decide
    · exact renderLines_no_line_feed hc l hl
  have hls : ("# local changes" :: ({} : Config).renderLines).filter
      (fun l => !skipsLine l.toList) = ({} : Config).renderLines := by
    rw [List.filter_cons_of_neg (by decide), filter_renderLines hc]
  obtain ⟨hrender, hinterleaved, hdrop⟩ := ofText_reads_back
  exact ⟨hc, hrender {} hc, hinterleaved {} _ hc hnl hls,
    hdrop ["CACHE_ENABLED=no"] ["# later", "JOB_PRIORITY=\"PRIORITY\""] "JOB_PRIORITY=KARMA"
      "JOB_PRIORITY" "KARMA" (by decide) (by decide) ⟨_, rfl⟩
      ⟨_, List.mem_cons_of_mem _ List.mem_cons_self, "PRIORITY", by decide⟩⟩

end Config

end ClusterScheduler
