import EcmaSyntax.Lexer.Escape

/-!
Text as a sequence of UTF-16 code units. A high half and a low one right after it are one
character; any other half has none, and the replacement character stands for it. What a text of
several runs of units spells depends on the cuts only where one of them parts a pair.
-/

namespace EcmaSyntax.Lexer

/-- The UTF-16 form of a code point, which may itself be half of a pair. -/
def utf16 (code : Nat) : List Nat :=
  if code < 0x10000 then [code]
  else [0xD800 + (code - 0x10000) / 0x400, 0xDC00 + (code - 0x10000) % 0x400]

/-- The text that code units spell. -/
def decodeUnits : List Nat → List Char
  | [] => []
  | [u] => [scalarOrReplacement u]
  | u :: v :: rest =>
    if isHighSurrogate u && isLowSurrogate v then
      Char.ofNat (combineSurrogates u v) :: decodeUnits rest
    else scalarOrReplacement u :: decodeUnits (v :: rest)

/-- The last unit is the first half of a pair. -/
def EndsHigh (units : List Nat) : Prop := ∃ u ∈ units.getLast?, isHighSurrogate u = true

/-- The first unit is the second half of a pair. -/
def StartsLow (units : List Nat) : Prop := ∃ u ∈ units.head?, isLowSurrogate u = true

instance (units : List Nat) : Decidable (EndsHigh units) :=
  inferInstanceAs (Decidable (∃ u ∈ units.getLast?, _ = true))

instance (units : List Nat) : Decidable (StartsLow units) :=
  inferInstanceAs (Decidable (∃ u ∈ units.head?, _ = true))

section Halves

variable {u v : Nat}

theorem isHighSurrogate_iff : isHighSurrogate u = true ↔ 0xD800 ≤ u ∧ u < 0xDC00 := by
  simp [isHighSurrogate]

theorem isLowSurrogate_iff : isLowSurrogate u = true ↔ 0xDC00 ≤ u ∧ u < 0xE000 := by
  simp [isLowSurrogate]

theorem not_isHighSurrogate_of_low (h : isLowSurrogate u = true) : isHighSurrogate u = false := by
  rw [isLowSurrogate_iff] at h
  rw [Bool.eq_false_iff, Ne, isHighSurrogate_iff]
  omega

/-- A code point that is no half of a pair has a character. -/
theorem scalarOrReplacement_of_not_surrogate (h : u < 0xD800 ∨ 0xE000 ≤ u) (hmax : u ≤ 0x10FFFF) :
    scalarOrReplacement u = Char.ofNat u := by
  have hnot : (isSurrogate u || decide (u > 0x10FFFF)) = false := by
    simp only [isSurrogate, Bool.or_eq_false_iff, Bool.and_eq_false_iff, decide_eq_false_iff_not]
    omega
  rw [scalarOrReplacement, scalar?, if_neg (by simp [hnot])]
  rfl

theorem char_not_surrogate (c : Char) : c.toNat < 0xD800 ∨ 0xE000 ≤ c.toNat := by
  rcases c.valid with h | h
  · exact .inl h
  · exact .inr h.1

theorem char_le_max (c : Char) : c.toNat ≤ 0x10FFFF := by
  rcases c.valid with h | h
  · exact Nat.le_of_lt (Nat.lt_trans h (by decide))
  · exact Nat.le_of_lt_succ h.2

theorem scalarOrReplacement_toNat (c : Char) : scalarOrReplacement c.toNat = c := by
  rw [scalarOrReplacement_of_not_surrogate (char_not_surrogate c) (char_le_max c), Char.ofNat_toNat]

theorem scalarOrReplacement_combine (hu : isHighSurrogate u = true) (hv : isLowSurrogate v = true) :
    scalarOrReplacement (combineSurrogates u v) = Char.ofNat (combineSurrogates u v) := by
  rw [isHighSurrogate_iff] at hu
  rw [isLowSurrogate_iff] at hv
  refine scalarOrReplacement_of_not_surrogate (.inr ?_) ?_
  · unfold combineSurrogates
    omega
  · unfold combineSurrogates
    omega

end Halves

section Decoding

variable {u v : Nat} {a b rest : List Nat}

theorem not_endsHigh_nil : ¬ EndsHigh [] := nofun

theorem not_startsLow_nil : ¬ StartsLow [] := nofun

@[simp] theorem endsHigh_singleton : EndsHigh [u] ↔ isHighSurrogate u = true := by
  simp [EndsHigh]

@[simp] theorem endsHigh_cons_cons : EndsHigh (u :: v :: rest) ↔ EndsHigh (v :: rest) := by
  simp [EndsHigh]

@[simp] theorem startsLow_cons : StartsLow (u :: rest) ↔ isLowSurrogate u = true := by
  simp [StartsLow]

theorem EndsHigh.cons (h : EndsHigh a) (u : Nat) : EndsHigh (u :: a) := by
  obtain ⟨last, hlast, hhigh⟩ := h
  refine ⟨last, ?_, hhigh⟩
  rw [List.getLast?_cons, Option.mem_def.mp hlast]
  rfl

theorem decodeUnits_pair (hu : isHighSurrogate u = true) (hv : isLowSurrogate v = true) :
    decodeUnits (u :: v :: rest) = Char.ofNat (combineSurrogates u v) :: decodeUnits rest := by
  rw [decodeUnits, if_pos (by simp [hu, hv])]

/-- A unit that starts no pair stands alone. -/
theorem decodeUnits_cons (h : ¬(isHighSurrogate u = true ∧ StartsLow rest)) :
    decodeUnits (u :: rest) = scalarOrReplacement u :: decodeUnits rest := by
  cases rest with
  | nil => rfl
  | cons v rest =>
    rw [decodeUnits, if_neg]
    rw [Bool.and_eq_true]
    exact fun ⟨hu, hv⟩ => h ⟨hu, v, rfl, hv⟩

/-- Units may be cut everywhere but within a pair. -/
theorem decodeUnits_append (h : ¬(EndsHigh a ∧ StartsLow b)) :
    decodeUnits (a ++ b) = decodeUnits a ++ decodeUnits b := by
  fun_induction decodeUnits a with
  | case1 => rfl
  | case2 u => exact decodeUnits_cons fun ⟨hu, hb⟩ => h ⟨endsHigh_singleton.mpr hu, hb⟩
  | case3 u v rest hpair ih =>
    rw [Bool.and_eq_true] at hpair
    rw [List.cons_append, List.cons_append, decodeUnits_pair hpair.1 hpair.2,
      ih fun ⟨hrest, hb⟩ => h ⟨(hrest.cons v).cons u, hb⟩]
    rfl
  | case4 u v rest hpair ih =>
    rw [Bool.and_eq_true] at hpair
    rw [List.cons_append, decodeUnits_cons, ih fun ⟨hrest, hb⟩ => h ⟨hrest.cons u, hb⟩]
    · rfl
    · exact fun ⟨hu, hv⟩ => hpair ⟨hu, startsLow_cons.mp hv⟩

/-- A cut within a pair makes two characters of one. -/
theorem length_decodeUnits_append (ha : EndsHigh a) (hb : StartsLow b) :
    (decodeUnits (a ++ b)).length + 1 = (decodeUnits a).length + (decodeUnits b).length := by
  fun_induction decodeUnits a with
  | case1 => exact absurd ha not_endsHigh_nil
  | case2 u =>
    obtain ⟨v, hv, hlow⟩ := hb
    obtain ⟨rest, rfl⟩ := List.head?_eq_some_iff.mp hv
    have hsingle : decodeUnits (v :: rest) = scalarOrReplacement v :: decodeUnits rest := by
      refine decodeUnits_cons fun ⟨hhigh, _⟩ => ?_
      rw [not_isHighSurrogate_of_low hlow] at hhigh
      cases hhigh
    rw [List.singleton_append, decodeUnits_pair (endsHigh_singleton.mp ha) hlow, hsingle]
    simp only [List.length_cons, List.length_nil]
    omega
  | case3 u v rest hpair ih =>
    rw [Bool.and_eq_true] at hpair
    have hrest : EndsHigh rest := by
      cases rest with
      | nil =>
        have hv : isHighSurrogate v = true := by simpa using ha
        rw [not_isHighSurrogate_of_low hpair.2] at hv
        cases hv
      | cons w rest => exact ha
    rw [List.cons_append, List.cons_append, decodeUnits_pair hpair.1 hpair.2]
    simp only [List.length_cons]
    have hlength := ih hrest
    omega
  | case4 u v rest hpair ih =>
    rw [Bool.and_eq_true] at hpair
    rw [List.cons_append, decodeUnits_cons]
    · have hlength := ih ha
      simp only [List.length_cons]
      omega
    · exact fun ⟨hu, hv⟩ => hpair ⟨hu, startsLow_cons.mp hv⟩

theorem length_decodeUnits_append_le (a b : List Nat) :
    (decodeUnits (a ++ b)).length ≤ (decodeUnits a).length + (decodeUnits b).length := by
  by_cases h : EndsHigh a ∧ StartsLow b
  · have hlength := length_decodeUnits_append h.1 h.2
    omega
  · exact Nat.le_of_eq (by rw [decodeUnits_append h, List.length_append])

end Decoding

section Characters

theorem decodeUnits_utf16 {code : Nat} (h : code ≤ 0x10FFFF) :
    decodeUnits (utf16 code) = [scalarOrReplacement code] := by
  unfold utf16
  split
  · rfl
  · have hhigh : isHighSurrogate (0xD800 + (code - 0x10000) / 0x400) = true := by
      rw [isHighSurrogate_iff]
      omega
    have hlow : isLowSurrogate (0xDC00 + (code - 0x10000) % 0x400) = true := by
      rw [isLowSurrogate_iff]
      omega
    have hcombine : combineSurrogates (0xD800 + (code - 0x10000) / 0x400)
        (0xDC00 + (code - 0x10000) % 0x400) = code := by
      unfold combineSurrogates
      omega
    rw [decodeUnits_pair hhigh hlow, ← scalarOrReplacement_combine hhigh hlow, hcombine]
    rfl

theorem decodeUnits_utf16_char (c : Char) : decodeUnits (utf16 c.toNat) = [c] := by
  rw [decodeUnits_utf16 (char_le_max c), scalarOrReplacement_toNat]

@[simp] theorem startsLow_utf16_append {code : Nat} {rest : List Nat} :
    StartsLow (utf16 code ++ rest) ↔ StartsLow (utf16 code) := by
  unfold utf16
  split
  · simp
  · simp

/-- Only a code point that is itself half of a pair is half of one at either end. -/
theorem endsHigh_utf16 {code : Nat} : EndsHigh (utf16 code) ↔ isHighSurrogate code = true := by
  unfold utf16
  split
  · exact endsHigh_singleton
  · rw [endsHigh_cons_cons, endsHigh_singleton, isHighSurrogate_iff, isHighSurrogate_iff]
    omega

theorem startsLow_utf16 {code : Nat} (h : code ≤ 0x10FFFF) :
    StartsLow (utf16 code) ↔ isLowSurrogate code = true := by
  unfold utf16
  split
  · exact startsLow_cons
  · rw [startsLow_cons, isLowSurrogate_iff, isLowSurrogate_iff]
    omega

/-- The units of a character are no half of a pair with what stands around them. -/
theorem utf16_char (c : Char) : ¬ EndsHigh (utf16 c.toNat) ∧ ¬ StartsLow (utf16 c.toNat) := by
  have hscalar := char_not_surrogate c
  rw [endsHigh_utf16, startsLow_utf16 (char_le_max c), isHighSurrogate_iff, isLowSurrogate_iff]
  omega

/-- A text is what its UTF-16 form spells. -/
theorem decodeUnits_flatMap_utf16 (text : List Char) :
    decodeUnits (text.flatMap fun c => utf16 c.toNat) = text := by
  induction text with
  | nil => rfl
  | cons c text ih =>
    rw [List.flatMap_cons, decodeUnits_append fun h =>
      (utf16_char c).1 h.1, decodeUnits_utf16_char, ih]
    rfl

end Characters

section Runs

variable {run : List Nat} {runs : List (List Nat)}

/-- A run ends with the first half of a pair and the units after it start with the second. -/
def SplitsPair (runs : List (List Nat)) : Prop :=
  ∃ run rest, run :: rest <:+ runs ∧ EndsHigh run ∧ StartsLow rest.flatten

theorem splitsPair_cons : SplitsPair (run :: runs) ↔
    (EndsHigh run ∧ StartsLow runs.flatten) ∨ SplitsPair runs := by
  constructor
  · rintro ⟨r, rest, hsuffix, hhigh, hlow⟩
    rcases List.suffix_cons_iff.mp hsuffix with heq | hsuffix
    · cases heq
      exact .inl ⟨hhigh, hlow⟩
    · exact .inr ⟨r, rest, hsuffix, hhigh, hlow⟩
  · rintro (⟨hhigh, hlow⟩ | ⟨r, rest, hsuffix, hhigh, hlow⟩)
    · exact ⟨run, runs, List.suffix_rfl, hhigh, hlow⟩
    · exact ⟨r, rest, hsuffix.trans (List.suffix_cons run runs), hhigh, hlow⟩

theorem length_decodeUnits_flatten_le (runs : List (List Nat)) :
    (decodeUnits runs.flatten).length ≤ (runs.flatMap decodeUnits).length := by
  induction runs with
  | nil => exact Nat.le_refl _
  | cons run runs ih =>
    rw [List.flatten_cons, List.flatMap_cons, List.length_append]
    exact Nat.le_trans (length_decodeUnits_append_le run runs.flatten) (Nat.add_le_add_left ih _)

/-- Runs spell one by one what they spell together unless they part a pair. -/
theorem flatMap_decodeUnits_eq_iff (runs : List (List Nat)) :
    runs.flatMap decodeUnits = decodeUnits runs.flatten ↔ ¬ SplitsPair runs := by
  induction runs with
  | nil =>
    refine ⟨fun _ => ?_, fun _ => rfl⟩
    rintro ⟨run, rest, hsuffix, -, -⟩
    exact absurd (List.suffix_nil.mp hsuffix) (List.cons_ne_nil _ _)
  | cons run runs ih =>
    rw [splitsPair_cons, List.flatMap_cons, List.flatten_cons]
    by_cases hsplit : EndsHigh run ∧ StartsLow runs.flatten
    · refine iff_of_false (fun heq => ?_) fun h => h (.inl hsplit)
      have hlength := length_decodeUnits_append hsplit.1 hsplit.2
      have hle := length_decodeUnits_flatten_le runs
      rw [← heq, List.length_append] at hlength
      omega
    · rw [decodeUnits_append hsplit, List.append_cancel_left_eq, ih]
      simp [hsplit]

end Runs

end EcmaSyntax.Lexer
