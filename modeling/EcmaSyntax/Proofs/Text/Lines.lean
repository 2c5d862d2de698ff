import EcmaSyntax.Proofs.Lexer.CodeUnits
import EcmaSyntax.Proofs.Text.Boundary
import Mathlib.Data.List.Pairwise
import Mathlib.Data.List.Sort
import Mathlib.Data.Nat.Count

/-!
Lines and columns. A line starts where the text does and where a line terminator sequence ends.
The starts are found in one pass over the characters, and the line of an offset is told by how many
of them it has passed. A boundary lies as far behind the last of them as there are code units in
between.
-/

namespace EcmaSyntax.Text

open EcmaSyntax.Lexer EcmaSyntax.Unicode

variable {version : Nat} [Unicode.IdentifierChars version]

/-- A line terminator sequence, with what stands before and after it. A carriage return and the
line feed after it are one sequence. -/
inductive Terminates : List Char → List Char → List Char → Prop
  | both (before after : List Char) : Terminates before ['\r', '\n'] after
  | lineFeed {before : List Char} (after : List Char) (h : before.getLast? ≠ some '\r') :
    Terminates before ['\n'] after
  | carriageReturn (before : List Char) {after : List Char} (h : after.head? ≠ some '\n') :
    Terminates before ['\r'] after
  | lineSeparator (before after : List Char) : Terminates before ['\u2028'] after
  | paragraphSeparator (before after : List Char) : Terminates before ['\u2029'] after

/-- A line terminator sequence of the text ends at the offset. -/
def EndsLine (text : List Char) (offset : Nat) : Prop :=
  ∃ before sequence after, text = before ++ sequence ++ after ∧
    Terminates before sequence after ∧ byteLength (before ++ sequence) = offset

/-- A line ends where a text is cut: behind a terminator, but not within a pair of them. -/
def EndsBefore (before after : List Char) : Prop :=
  (∃ c ∈ before.getLast?, isLineTerminator c = true) ∧
    ¬(before.getLast? = some '\r' ∧ after.head? = some '\n')

section Ends

variable {before after rest : List Char} {c : Char} {n : Nat}

theorem Terminates.endsBefore {sequence : List Char} (h : Terminates before sequence after) :
    EndsBefore (before ++ sequence) after := by
  cases h with
  | both => exact ⟨⟨'\n', by simp, rfl⟩, by simp⟩
  | lineFeed _ _ => exact ⟨⟨'\n', by simp, rfl⟩, by simp⟩
  | carriageReturn h => exact ⟨⟨'\r', by simp, rfl⟩, fun hboth => h hboth.2⟩
  | lineSeparator => exact ⟨⟨'\u2028', by simp, rfl⟩, by simp⟩
  | paragraphSeparator => exact ⟨⟨'\u2029', by simp, rfl⟩, by simp⟩

/-- Where a line ends stands the last character of some sequence. -/
theorem EndsBefore.exists_terminates (h : EndsBefore before after) :
    ∃ lead sequence, before = lead ++ sequence ∧ Terminates lead sequence after := by
  obtain ⟨⟨c, hc, hterminator⟩, hpair⟩ := h
  obtain ⟨lead, rfl⟩ := List.getLast?_eq_some_iff.mp hc
  simp only [isLineTerminator, Bool.or_eq_true, beq_iff_eq] at hterminator
  rcases hterminator with ((rfl | rfl) | rfl) | rfl
  · by_cases hreturn : lead.getLast? = some '\r'
    · obtain ⟨lead, rfl⟩ := List.getLast?_eq_some_iff.mp hreturn
      exact ⟨lead, ['\r', '\n'], by simp, .both lead after⟩
    · exact ⟨lead, ['\n'], rfl, .lineFeed after hreturn⟩
  · exact ⟨lead, ['\r'], rfl, .carriageReturn lead fun hfeed => hpair ⟨hc, hfeed⟩⟩
  · exact ⟨lead, ['\u2028'], rfl, .lineSeparator lead after⟩
  · exact ⟨lead, ['\u2029'], rfl, .paragraphSeparator lead after⟩

theorem endsLine_iff {text : List Char} : EndsLine text n ↔
    ∃ before after, text = before ++ after ∧ byteLength before = n ∧ EndsBefore before after := by
  constructor
  · rintro ⟨before, sequence, after, rfl, hends, hlength⟩
    exact ⟨before ++ sequence, after, rfl, hlength, hends.endsBefore⟩
  · rintro ⟨before, after, rfl, rfl, hends⟩
    obtain ⟨lead, sequence, rfl, hsequence⟩ := hends.exists_terminates
    exact ⟨lead, sequence, after, rfl, hsequence, rfl⟩

theorem EndsLine.isBoundary {text : List Char} (h : EndsLine text n) : IsBoundary text n := by
  obtain ⟨before, after, rfl, rfl, -⟩ := endsLine_iff.mp h
  exact isBoundary_append before after

theorem EndsLine.pos {text : List Char} (h : EndsLine text n) : 0 < n := by
  obtain ⟨before, after, rfl, rfl, ⟨c, hc, -⟩, -⟩ := endsLine_iff.mp h
  refine byteLength_pos fun hnil => ?_
  rw [hnil] at hc
  cases hc

/-- Behind some part of a text, a line ends right behind the next character or further on. -/
theorem endsLine_cons (before rest : List Char) (c : Char) (n : Nat) :
    byteLength before < n ∧ EndsLine (before ++ c :: rest) n ↔
      n = byteLength (before ++ [c]) ∧ EndsBefore (before ++ [c]) rest ∨
        byteLength (before ++ [c]) < n ∧ EndsLine (before ++ [c] ++ rest) n := by
  have hlength : byteLength (before ++ [c]) = byteLength before + c.utf8Size :=
    byteLength_append _ _
  have hsize : 0 < c.utf8Size := c.utf8Size_pos
  rw [List.append_assoc, List.singleton_append]
  constructor
  · rintro ⟨hlt, hends⟩
    obtain ⟨lead, after, htext, rfl, hbefore⟩ := endsLine_iff.mp hends
    rcases List.append_eq_append_iff.mp htext with ⟨piece, rfl, hpiece⟩ | ⟨piece, rfl, -⟩
    · match piece with
      | [] => simp at hlt
      | [d] =>
        obtain ⟨rfl, rfl⟩ := List.cons.inj hpiece
        exact .inl ⟨rfl, hbefore⟩
      | d :: d' :: piece =>
        obtain ⟨rfl, -⟩ := List.cons.inj hpiece
        have hmore : 0 < byteLength (d' :: piece) := byteLength_pos (List.cons_ne_nil d' piece)
        refine .inr ⟨?_, hends⟩
        rw [hlength, byteLength_append, byteLength]
        omega
    · rw [byteLength_append] at hlt
      omega
  · rintro (⟨rfl, hends⟩ | ⟨hlt, hends⟩)
    · exact ⟨by omega, endsLine_iff.mpr ⟨before ++ [c], rest, by simp, rfl, hends⟩⟩
    · exact ⟨by omega, hends⟩

/-- A carriage return and a line feed end one line. -/
theorem endsLine_pair (before rest : List Char) (n : Nat) :
    byteLength before < n ∧ EndsLine (before ++ '\r' :: '\n' :: rest) n ↔
      n = byteLength (before ++ ['\r', '\n']) ∨
        byteLength (before ++ ['\r', '\n']) < n ∧
          EndsLine (before ++ ['\r', '\n'] ++ rest) n := by
  have hwithin : ¬EndsBefore (before ++ ['\r']) ('\n' :: rest) := fun h => h.2 (by simp)
  have hends : EndsBefore (before ++ ['\r', '\n']) rest := ⟨⟨'\n', by simp, rfl⟩, by simp⟩
  rw [endsLine_cons, endsLine_cons]
  simp only [hwithin, and_false, false_or, List.append_assoc, List.cons_append, List.nil_append]
  simp only [hends, and_true]

end Ends

section Starts

variable {before : List Char} {n : Nat}

/-- The starts of lines behind some part of a text. -/
theorem mem_lineStartsFrom (offset : Nat) (rest : List Char)
    (hoffset : byteLength before = offset) :
    n ∈ lineStartsFrom offset rest ↔ offset < n ∧ EndsLine (before ++ rest) n := by
  fun_induction lineStartsFrom offset rest generalizing before with
  | case1 offset =>
    refine iff_of_false List.not_mem_nil fun h => ?_
    have hle := h.2.isBoundary.le
    rw [List.append_nil, hoffset] at hle
    omega
  | case2 offset rest ih =>
    have hlength : byteLength (before ++ ['\r', '\n']) = offset + 2 := by
      rw [byteLength_append, hoffset]
      rfl
    rw [List.mem_cons, ih hlength, ← hlength, ← hoffset, endsLine_pair]
  | case3 offset c rest hpair hc ih =>
    have hlength : byteLength (before ++ [c]) = offset + c.utf8Size := by
      rw [byteLength_append, hoffset]
      rfl
    have hends : EndsBefore (before ++ [c]) rest := by
      refine ⟨⟨c, by simp, hc⟩, fun hboth => ?_⟩
      obtain ⟨after, rfl⟩ := List.head?_eq_some_iff.mp hboth.2
      exact hpair after (by simpa using hboth.1) rfl
    rw [List.mem_cons, ih hlength, ← hlength, ← hoffset, endsLine_cons]
    simp only [hends, and_true]
  | case4 offset c rest hpair hc ih =>
    have hlength : byteLength (before ++ [c]) = offset + c.utf8Size := by
      rw [byteLength_append, hoffset]
      rfl
    have hends : ¬EndsBefore (before ++ [c]) rest := by
      rintro ⟨⟨d, hd, hterminator⟩, -⟩
      obtain rfl : c = d := by simpa using hd
      exact hc hterminator
    rw [ih hlength, ← hlength, ← hoffset, endsLine_cons]
    simp only [hends, and_false, false_or]

theorem pairwise_lineStartsFrom (offset : Nat) (rest : List Char) :
    (offset :: lineStartsFrom offset rest).Pairwise (· < ·) := by
  fun_induction lineStartsFrom offset rest with
  | case1 offset => exact List.pairwise_singleton _ _
  | case2 offset rest ih =>
    have hlater := (List.pairwise_cons.mp ih).1
    refine List.pairwise_cons.mpr ⟨List.forall_mem_cons.mpr ⟨by omega, fun n hn => ?_⟩, ih⟩
    exact Nat.lt_trans (by omega) (hlater n hn)
  | case3 offset c rest _ _ ih =>
    have hsize : 0 < c.utf8Size := c.utf8Size_pos
    have hlater := (List.pairwise_cons.mp ih).1
    refine List.pairwise_cons.mpr ⟨List.forall_mem_cons.mpr ⟨by omega, fun n hn => ?_⟩, ih⟩
    exact Nat.lt_trans (by omega) (hlater n hn)
  | case4 offset c rest _ _ ih =>
    have hsize : 0 < c.utf8Size := c.utf8Size_pos
    obtain ⟨hlater, hrest⟩ := List.pairwise_cons.mp ih
    exact List.pairwise_cons.mpr ⟨fun n hn => Nat.lt_trans (by omega) (hlater n hn), hrest⟩

end Starts

instance (text : List Char) : DecidablePred (EndsLine text) := fun n =>
  decidable_of_iff (n ∈ lineStartsFrom 0 text) <| by
    have hempty : byteLength [] = 0 := rfl
    rw [mem_lineStartsFrom 0 text hempty, List.nil_append, and_iff_right_of_imp EndsLine.pos]

/-- The end of the last line terminator sequence that ends at the offset or before, or the start of
the text if there is none. -/
def lastLineEnd (text : List Char) (offset : Nat) : Nat := Nat.findGreatest (EndsLine text) offset

/-- How many line terminator sequences end at the offset or before. -/
def lineEnds (text : List Char) (offset : Nat) : Nat := Nat.count (EndsLine text) (offset + 1)

theorem unitLength_eq (text : List Char) :
    unitLength text = (text.flatMap fun c => utf16 c.toNat).length := by
  induction text with
  | nil => rfl
  | cons c rest ih =>
    rw [unitLength, List.flatMap_cons, List.length_append, ih, unitSize, utf16]
    split <;> rfl

namespace LineMap

variable {text : List Char} {n offset : Nat}

/-- A line starts where the text does or where a line ends. -/
theorem mem_starts : n ∈ (ofText text).starts ↔ n = 0 ∨ EndsLine text n := by
  have hempty : byteLength [] = 0 := rfl
  have hlater := mem_lineStartsFrom (n := n) 0 text hempty
  rw [List.nil_append, and_iff_right_of_imp EndsLine.pos] at hlater
  exact List.mem_cons.trans (or_congr_right hlater)

theorem pairwise_starts (text : List Char) : (ofText text).starts.Pairwise (· < ·) :=
  pairwise_lineStartsFrom 0 text

theorem mem_takeWhile_le {starts : List Nat} (h : starts.Pairwise (· < ·)) :
    n ∈ starts.takeWhile (· ≤ offset) ↔ n ∈ starts ∧ n ≤ offset := by
  induction starts with
  | nil => simp
  | cons start starts ih =>
    obtain ⟨hlater, hstarts⟩ := List.pairwise_cons.mp h
    rw [List.takeWhile_cons]
    split
    · rename_i hle
      rw [List.mem_cons, ih hstarts, List.mem_cons, or_and_right]
      exact or_congr_left ⟨fun heq => ⟨heq, heq ▸ of_decide_eq_true hle⟩, And.left⟩
    · rename_i hgt
      refine iff_of_false List.not_mem_nil fun ⟨hmem, hle⟩ => hgt (decide_eq_true ?_)
      rcases List.mem_cons.mp hmem with rfl | hmem
      · exact hle
      · exact Nat.le_trans (Nat.le_of_lt (hlater n hmem)) hle

/-- The starts of lines up to an offset are those of the first line and behind the lines that end
up to it. -/
theorem takeWhile_starts (text : List Char) (offset : Nat) :
    (ofText text).starts.takeWhile (· ≤ offset) =
      0 :: (List.range (offset + 1)).filter (EndsLine text) := by
  have hsorted := (pairwise_starts text).sublist (List.takeWhile_sublist (· ≤ offset))
  refine hsorted.eq_of_mem_iff (List.pairwise_cons.mpr ⟨fun n hn => ?_, ?_⟩) fun n => ?_
  · exact EndsLine.pos (of_decide_eq_true (List.mem_filter.mp hn).2)
  · exact List.pairwise_lt_range.filter _
  · rw [mem_takeWhile_le (pairwise_starts text), mem_starts, List.mem_cons, List.mem_filter,
      List.mem_range, decide_eq_true_iff]
    constructor
    · rintro ⟨rfl | hends, hle⟩
      · exact .inl rfl
      · exact .inr ⟨by omega, hends⟩
    · rintro (rfl | ⟨hlt, hends⟩)
      · exact ⟨.inl rfl, Nat.zero_le offset⟩
      · exact ⟨.inr hends, by omega⟩

theorem lineIndex_eq (text : List Char) (offset : Nat) :
    (ofText text).lineIndex offset = lineEnds text offset := by
  rw [lineIndex, takeWhile_starts, List.length_cons, Nat.add_sub_cancel, lineEnds, Nat.count,
    List.countP_eq_length_filter]

/-- The line of an offset starts at the last line end up to it. -/
theorem lineStart_eq (text : List Char) (offset : Nat) :
    (ofText text).starts.getD ((ofText text).lineIndex offset) 0 = lastLineEnd text offset := by
  have hmem := lineStart_mem text offset
  have hsorted := (pairwise_starts text).sublist (List.takeWhile_sublist (· ≤ offset))
  have hne := List.ne_nil_of_mem hmem
  have hprefix := List.takeWhile_prefix (l := (ofText text).starts) (· ≤ offset)
  have hindex : (ofText text).lineIndex offset < (ofText text).starts.length := by
    have hlength := hprefix.length_le
    have hpos := List.length_pos_of_ne_nil hne
    unfold lineIndex
    omega
  have hlast : (ofText text).starts.getD ((ofText text).lineIndex offset) 0 =
      ((ofText text).starts.takeWhile (· ≤ offset)).getLast hne := by
    rw [List.getLast_eq_getElem, hprefix.getElem, List.getD_eq_getElem?_getD,
      List.getElem?_eq_getElem hindex, Option.getD_some]
    rfl
  have hgreatest : ∀ m ∈ (ofText text).starts.takeWhile (· ≤ offset),
      m ≤ (ofText text).starts.getD ((ofText text).lineIndex offset) 0 := fun m hm =>
    hlast ▸ (hsorted.imp Nat.le_of_lt).rel_getLast hm
  generalize (ofText text).starts.getD ((ofText text).lineIndex offset) 0 = start at hmem hgreatest
  rw [mem_takeWhile_le (pairwise_starts text), mem_starts] at hmem
  refine (Nat.findGreatest_eq_iff.mpr ⟨hmem.2, hmem.1.resolve_left, fun m hlt hle hends => ?_⟩).symm
  refine absurd (hgreatest m ?_) (by omega)
  exact (mem_takeWhile_le (pairwise_starts text)).mpr ⟨mem_starts.mpr (.inr hends), hle⟩

theorem isBoundary_lastLineEnd (text : List Char) (offset : Nat) :
    IsBoundary text (lastLineEnd text offset) := by
  by_cases hfirst : lastLineEnd text offset = 0
  · rw [hfirst]
    exact isBoundary_zero text
  · exact (Nat.findGreatest_of_ne_zero rfl hfirst).isBoundary

/-- The starts of lines ascend from the start of the text, and a boundary is on the line behind as
many line terminator sequences as end up to it, as many code units behind the last of them as there
are in between. -/
theorem positions_of_text (before after : List Char) :
    (ofText (before ++ after)).starts.head? = some 0 ∧
    (ofText (before ++ after)).starts.Pairwise (· < ·) ∧
    ∃ lead line, before = lead ++ line ∧
      byteLength lead = lastLineEnd (before ++ after) (byteLength before) ∧
      (ofText (before ++ after)).position (byteLength before) =
        ⟨1 + lineEnds (before ++ after) (byteLength before),
          (line.flatMap fun c => utf16 c.toNat).length⟩ := by
  refine ⟨rfl, pairwise_starts _, ?_⟩
  have hlast : lastLineEnd (before ++ after) (byteLength before) ≤ byteLength before :=
    Nat.findGreatest_le _
  obtain ⟨lead, line, rest, htext, hlead, hline⟩ :=
    (isBoundary_lastLineEnd (before ++ after) (byteLength before)).parts
      (isBoundary_append before after) hlast
  have hlength : byteLength (lead ++ line) = byteLength before := by
    rw [byteLength_append, hline]
  obtain rfl : before = lead ++ line := by
    rw [← takeBytes_append before after, htext, ← List.append_assoc, ← hlength, takeBytes_append]
  refine ⟨lead, line, rfl, hlead, ?_⟩
  have hpiece : (ofText (lead ++ line ++ after)).before? (byteLength (lead ++ line)) =
      some line := by
    have hend : min (byteLength (lead ++ line)) (byteLength (lead ++ line ++ after)) =
        byteLength lead + byteLength line := by
      rw [byteLength_append _ after, Nat.min_eq_left (Nat.le_add_right _ _), byteLength_append]
    unfold before?
    rw [lineStart_eq, ← hlead]
    change takeBytes? (min _ (byteLength (lead ++ line ++ after)) - _)
      (dropBytes _ (lead ++ line ++ after)) = some line
    rw [hend, Nat.add_sub_cancel_left, List.append_assoc, dropBytes_append, takeBytes?_append]
  rw [← unitLength_eq, ← position_column hpiece, Nat.add_comm 1, ← lineIndex_eq]
  rfl

end LineMap

end EcmaSyntax.Text
