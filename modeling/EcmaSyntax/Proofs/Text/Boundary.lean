import EcmaSyntax.Text.LineMap

/-!
Places in a text. An offset is a boundary if the bytes before it are whole characters of the
text. Boundaries divide a text: what stands between two of them is a slice of it, and the columns
of a boundary are counted in units, since its line starts at a boundary too.
-/

namespace EcmaSyntax.Text

/-- The offset stands between two characters of the text, or at one of its ends. -/
def IsBoundary (text : List Char) (offset : Nat) : Prop := (takeBytes? offset text).isSome

instance (text : List Char) (offset : Nat) : Decidable (IsBoundary text offset) :=
  inferInstanceAs (Decidable (_ = true))

/-- A piece of text that stands somewhere in the text. -/
def IsSlice (text piece : List Char) : Prop := ∃ start stop, slice? text start stop = some piece

theorem isBoundary_append (before after : List Char) :
    IsBoundary (before ++ after) (byteLength before) := by
  unfold IsBoundary
  rw [takeBytes?_append]
  rfl

theorem slice?_append (before piece after : List Char) :
    slice? (before ++ (piece ++ after)) (byteLength before)
      (byteLength before + byteLength piece) = some piece := by
  unfold slice?
  rw [if_pos (Nat.le_add_right _ _), takeBytes?_append]
  simp only [Option.bind_some, List.drop_left, Nat.add_sub_cancel_left]
  exact takeBytes?_append piece after

theorem isSlice_of_infix {text piece : List Char} (h : piece <:+: text) : IsSlice text piece := by
  obtain ⟨before, after, rfl⟩ := h
  rw [List.append_assoc]
  exact ⟨_, _, slice?_append before piece after⟩

theorem takeBytes_append (a b : List Char) : takeBytes (byteLength a) (a ++ b) = a := by
  induction a with
  | nil => cases b <;> rfl
  | cons c rest ih =>
    have hc : 0 < c.utf8Size := c.utf8Size_pos
    obtain ⟨n, hn⟩ : ∃ n, byteLength (c :: rest) = n + 1 :=
      ⟨c.utf8Size + byteLength rest - 1, by simp only [byteLength]; omega⟩
    have hrest : n + 1 - c.utf8Size = byteLength rest := by
      rw [← hn]
      simp [byteLength]
    rw [hn, List.cons_append, takeBytes, hrest, ih]

theorem byteLength_pos {a : List Char} (h : a ≠ []) : 0 < byteLength a := by
  cases a with
  | nil => exact absurd rfl h
  | cons c rest =>
    have hc : 0 < c.utf8Size := c.utf8Size_pos
    simp only [byteLength]
    omega

theorem takeBytes?_eq_some {text before : List Char} {n : Nat}
    (h : takeBytes? n text = some before) :
    ∃ after, text = before ++ after ∧ byteLength before = n := by
  fun_induction takeBytes? n text generalizing before with
  | case1 text =>
    obtain rfl := Option.some.inj h
    exact ⟨text, rfl, rfl⟩
  | case2 => cases h
  | case3 n c rest hle ih =>
    obtain ⟨inner, hinner, rfl⟩ := Option.map_eq_some_iff.mp h
    obtain ⟨after, rfl, hlength⟩ := ih hinner
    exact ⟨after, rfl, by simp only [byteLength, hlength]; omega⟩
  | case4 => cases h

/-- A boundary divides the text. -/
theorem IsBoundary.divides {text : List Char} {offset : Nat} (h : IsBoundary text offset) :
    ∃ before after, text = before ++ after ∧ byteLength before = offset := by
  obtain ⟨before, hbefore⟩ := Option.isSome_iff_exists.mp h
  exact ⟨before, takeBytes?_eq_some hbefore⟩

theorem IsBoundary.le {text : List Char} {offset : Nat} (h : IsBoundary text offset) :
    offset ≤ byteLength text := by
  obtain ⟨before, after, rfl, rfl⟩ := h.divides
  rw [byteLength_append]
  omega

theorem isBoundary_zero (text : List Char) : IsBoundary text 0 := isBoundary_append [] text

theorem isBoundary_byteLength (text : List Char) : IsBoundary text (byteLength text) := by
  simpa using isBoundary_append text []

/-- A slice is cut out between two boundaries. -/
theorem isBoundary_of_slice? {text piece : List Char} {start stop : Nat}
    (h : slice? text start stop = some piece) :
    start ≤ stop ∧ IsBoundary text start ∧ IsBoundary text stop := by
  unfold slice? at h
  split at h
  · rename_i hle
    obtain ⟨before, hbefore, hpiece⟩ := Option.bind_eq_some_iff.mp h
    refine ⟨hle, Option.isSome_of_mem hbefore, ?_⟩
    obtain ⟨rest, rfl, hstart⟩ := takeBytes?_eq_some hbefore
    rw [List.drop_left] at hpiece
    obtain ⟨after, rfl, hlength⟩ := takeBytes?_eq_some hpiece
    have hstop : byteLength (before ++ piece) = stop := by
      rw [byteLength_append]
      omega
    rw [← List.append_assoc, ← hstop]
    exact isBoundary_append _ _
  · cases h

theorem isBoundary_behind (before ended rest : List Char) :
    IsBoundary (before ++ (ended ++ rest)) (byteLength (before ++ ended)) := by
  rw [← List.append_assoc]
  exact isBoundary_append _ _

/-- A line starts between two characters. -/
theorem isBoundary_lineStartsFrom {before : List Char} (offset : Nat) (rest : List Char)
    (hoffset : byteLength before = offset) :
    ∀ start ∈ lineStartsFrom offset rest, IsBoundary (before ++ rest) start := by
  fun_induction lineStartsFrom offset rest generalizing before with
  | case1 => exact nofun
  | case2 offset rest ih =>
    have hlength : byteLength (before ++ ['\r', '\n']) = offset + 2 := by
      rw [byteLength_append, hoffset]
      rfl
    have hrest := ih hlength
    rw [List.append_assoc] at hrest
    exact List.forall_mem_cons.mpr ⟨hlength ▸ isBoundary_behind before ['\r', '\n'] rest, hrest⟩
  | case3 offset c rest _ _ ih =>
    have hlength : byteLength (before ++ [c]) = offset + c.utf8Size := by
      rw [byteLength_append, hoffset]
      rfl
    have hrest := ih hlength
    rw [List.append_assoc] at hrest
    exact List.forall_mem_cons.mpr ⟨hlength ▸ isBoundary_behind before [c] rest, hrest⟩
  | case4 offset c rest _ _ ih =>
    have hlength : byteLength (before ++ [c]) = offset + c.utf8Size := by
      rw [byteLength_append, hoffset]
      rfl
    have hrest := ih hlength
    rwa [List.append_assoc] at hrest

/-- Of two boundaries of a text the first divides what stands before the second. -/
theorem IsBoundary.parts {text : List Char} {start stop : Nat} (hstart : IsBoundary text start)
    (hstop : IsBoundary text stop) (hle : start ≤ stop) : ∃ before piece after,
      text = before ++ (piece ++ after) ∧ byteLength before = start ∧
        byteLength before + byteLength piece = stop := by
  obtain ⟨before, rest, rfl, rfl⟩ := hstart.divides
  obtain ⟨whole, after, htext, rfl⟩ := hstop.divides
  rcases List.append_eq_append_iff.mp htext with ⟨piece, rfl, rfl⟩ | ⟨piece, rfl, rfl⟩
  · exact ⟨before, piece, after, rfl, rfl, (byteLength_append _ _).symm⟩
  · rw [byteLength_append] at hle
    refine ⟨whole ++ piece, [], rest, rfl, rfl, ?_⟩
    rw [byteLength_append, byteLength]
    omega

namespace LineMap

/-- The piece of its line before an offset, unless the offset is inside a character. -/
def before? (m : LineMap) (offset : Nat) : Option (List Char) :=
  let lineStart := m.starts.getD (m.lineIndex offset) 0
  takeBytes? (min offset (byteLength m.text) - lineStart) (dropBytes lineStart m.text)

/-- Columns are counted in units unless the offset is inside a character. -/
theorem position_column {m : LineMap} {offset : Nat} {piece : List Char}
    (h : m.before? offset = some piece) : (m.position offset).column = unitLength piece := by
  unfold before? at h
  unfold position column
  dsimp only at h ⊢
  rw [h]

/-- The line of an offset starts at or before it. -/
theorem lineStart_mem (text : List Char) (offset : Nat) :
    (ofText text).starts.getD ((ofText text).lineIndex offset) 0 ∈
      (ofText text).starts.takeWhile (· ≤ offset) := by
  have hfirst : 0 < ((ofText text).starts.takeWhile (· ≤ offset)).length := by
    simp [ofText]
  have hindex : (ofText text).lineIndex offset <
      ((ofText text).starts.takeWhile (· ≤ offset)).length := by
    unfold lineIndex
    omega
  have hprefix := List.takeWhile_prefix (l := (ofText text).starts) (· ≤ offset)
  have hbound := Nat.lt_of_lt_of_le hindex hprefix.length_le
  rw [List.getD_eq_getElem?_getD, List.getElem?_eq_getElem hbound, Option.getD_some,
    ← hprefix.getElem hindex]
  exact List.getElem_mem _

theorem before?_isSome {text : List Char} {offset : Nat} (h : IsBoundary text offset) :
    ∃ piece, (ofText text).before? offset = some piece := by
  have hmem := lineStart_mem text offset
  unfold before?
  generalize (ofText text).starts.getD ((ofText text).lineIndex offset) 0 = lineStart at hmem ⊢
  have hle : lineStart ≤ offset := by
    simpa using List.all_eq_true.mp List.all_takeWhile lineStart hmem
  have hstart : IsBoundary text lineStart := by
    rcases List.mem_cons.mp ((List.takeWhile_sublist _).subset hmem) with rfl | hlater
    · exact isBoundary_zero text
    · have hempty : byteLength [] = 0 := rfl
      exact isBoundary_lineStartsFrom 0 text hempty lineStart hlater
  have hend : min offset (byteLength text) = offset := Nat.min_eq_left h.le
  obtain ⟨before, piece, after, rfl, rfl, rfl⟩ := hstart.parts h hle
  refine ⟨piece, ?_⟩
  change takeBytes? (min _ (byteLength (before ++ (piece ++ after))) - _)
    (dropBytes _ (before ++ (piece ++ after))) = some piece
  rw [hend, Nat.add_sub_cancel_left, dropBytes_append, takeBytes?_append]

end LineMap

end EcmaSyntax.Text
