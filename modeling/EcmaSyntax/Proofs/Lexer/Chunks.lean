import EcmaSyntax.Lexer.State
import EcmaSyntax.Proofs.Lexer.StringTokens

/-!
The raw text of template chunks, in which every line break is a line feed. It is read as the chunk
itself: escapes look ahead, but never over a line break or a delimiter, and a break that is escaped
or stands alone has one value in every form.
-/

namespace EcmaSyntax.Lexer

open EcmaSyntax.Diagnostic EcmaSyntax.Number EcmaSyntax.Text EcmaSyntax.Unicode
open State (normalizeLineBreaks)

variable {version : Nat} [Unicode.IdentifierChars version]

section Raw

variable {c : Char} {a text : List Char}

theorem normalizeLineBreaks_cons (hc : c ≠ '\r') (text : List Char) :
    normalizeLineBreaks (c :: text) = c :: normalizeLineBreaks text := by
  rw [normalizeLineBreaks, if_neg (by simpa using hc)]
  rintro rest rfl
  exact absurd rfl hc

/-- A carriage return with or without a line feed behind it. -/
theorem normalizeLineBreaks_return (text : List Char) : normalizeLineBreaks ('\r' :: text) =
    '\n' :: normalizeLineBreaks (text.drop (if text.head? = some '\n' then 1 else 0)) := by
  split
  · rename_i hfeed
    obtain ⟨rest, rfl⟩ := List.head?_eq_some_iff.mp hfeed
    rfl
  · rename_i hfeed
    rw [normalizeLineBreaks]
    · rfl
    · rintro rest - rfl
      exact hfeed rfl

theorem normalizeLineBreaks_append (ha : '\r' ∉ a) (text : List Char) :
    normalizeLineBreaks (a ++ text) = a ++ normalizeLineBreaks text := by
  induction a with
  | nil => rfl
  | cons c a ih =>
    simp only [List.mem_cons, not_or] at ha
    rw [List.cons_append, normalizeLineBreaks_cons (Ne.symm ha.1), ih ha.2, List.cons_append]

theorem return_not_mem_normalizeLineBreaks (text : List Char) :
    '\r' ∉ normalizeLineBreaks text := by
  fun_induction normalizeLineBreaks text with
  | case1 => exact nofun
  | case2 rest ih => simpa using ih
  | case3 c rest _ ih =>
    rw [List.mem_cons, not_or]
    refine ⟨?_, ih⟩
    split
    · decide
    · rename_i hc
      exact fun heq => hc (beq_iff_eq.mpr heq.symm)

theorem normalizeLineBreaks_idem (text : List Char) :
    normalizeLineBreaks (normalizeLineBreaks text) = normalizeLineBreaks text := by
  have hsplit := normalizeLineBreaks_append (return_not_mem_normalizeLineBreaks text) []
  simpa [normalizeLineBreaks] using hsplit

end Raw

section LookAhead

variable {c : Char} {p : Char → Bool} {a b text : List Char}

/-- The marks that no escape looks over: those of a line break and of a delimiter. -/
def breakMarks : List Char := ['\r', '\n', '\x60', '$']

theorem forall_mem_breakMarks {P : Char → Prop} :
    (∀ c ∈ breakMarks, P c) ↔ P '\r' ∧ P '\n' ∧ P '\x60' ∧ P '$' := by
  simp [breakMarks]

/-- The text before the first of these marks. -/
def unbroken (text : List Char) : List Char := text.takeWhile fun c => !breakMarks.contains c

theorem not_mem_breakMarks_of_unbroken (h : c ∈ unbroken text) : c ∉ breakMarks := by
  simpa using List.all_eq_true.mp List.all_takeWhile c h

theorem unbroken_cons (hc : c ∉ breakMarks) (text : List Char) :
    unbroken (c :: text) = c :: unbroken text :=
  List.takeWhile_cons_of_pos (by simpa using hc)

theorem unbroken_mark (hc : c ∈ breakMarks) (text : List Char) : unbroken (c :: text) = [] :=
  List.takeWhile_cons_of_neg (by simpa using hc)

/-- What stands behind a mark does not matter. -/
theorem unbroken_append (hc : c ∈ breakMarks) (text rest : List Char) :
    unbroken (text ++ c :: rest) = unbroken text := by
  induction text with
  | nil => exact unbroken_mark hc rest
  | cons d text ih =>
    rw [List.cons_append]
    by_cases hd : d ∈ breakMarks
    · rw [unbroken_mark hd, unbroken_mark hd]
    · rw [unbroken_cons hd, unbroken_cons hd, ih]

theorem unbroken_normalizeLineBreaks (text : List Char) :
    unbroken (normalizeLineBreaks text) = unbroken text := by
  fun_induction normalizeLineBreaks text with
  | case1 => rfl
  | case2 rest => rw [unbroken_mark (by decide), unbroken_mark (by decide)]
  | case3 c rest _ ih =>
    by_cases hc : c ∈ breakMarks
    · rw [unbroken_mark hc]
      refine unbroken_mark ?_ _
      split
      · decide
      · exact hc
    · have hreturn : (c == '\r') = false := by
        rw [beq_eq_false_iff_ne]
        rintro rfl
        exact hc (by decide)
      rw [hreturn, if_neg Bool.false_ne_true, unbroken_cons hc, unbroken_cons hc, ih]

/-- The text is empty or starts with a mark. -/
def Breaks (text : List Char) : Prop := ∀ c ∈ text.head?, c ∈ breakMarks

theorem exists_unbroken (text : List Char) : ∃ rest, text = unbroken text ++ rest ∧
    Breaks rest := by
  refine ⟨text.dropWhile fun c => !breakMarks.contains c, List.takeWhile_append_dropWhile.symm, ?_⟩
  intro c hc
  have hnot := List.head?_dropWhile_not (fun c => !breakMarks.contains c) text
  rw [Option.mem_def.mp hc] at hnot
  simpa using hnot

theorem Breaks.cases (h : Breaks text) : text = [] ∨ ∃ c rest, text = c :: rest ∧
    c ∈ breakMarks := by
  cases text with
  | nil => exact .inl rfl
  | cons c rest => exact .inr ⟨c, rest, rfl, h c rfl⟩

theorem Breaks.take (h : Breaks text) (n : Nat) : Breaks (text.take n) := by
  rcases h.cases with rfl | ⟨c, rest, rfl, hc⟩
  · rw [List.take_nil]
    exact nofun
  · cases n with
    | zero => exact nofun
    | succ n =>
      rintro d ⟨⟩
      exact hc

theorem Breaks.any_head? (h : Breaks b) (hp : ∀ c ∈ breakMarks, p c = false) :
    (a ++ b).head?.any p = a.head?.any p := by
  cases a with
  | cons c a => rfl
  | nil =>
    rcases h.cases with rfl | ⟨c, rest, rfl, hc⟩
    · rfl
    · exact hp c hc

theorem Breaks.takeWhile_append (h : Breaks b) (hp : ∀ c ∈ breakMarks, p c = false) :
    (a ++ b).takeWhile p = a.takeWhile p := by
  induction a with
  | nil =>
    rcases h.cases with rfl | ⟨c, rest, rfl, hc⟩
    · rfl
    · exact List.takeWhile_cons_of_neg (by simp [hp c hc])
  | cons c a ih => rw [List.cons_append, List.takeWhile_cons, List.takeWhile_cons, ih]

theorem Breaks.takeWhile_take (h : Breaks b) (hp : ∀ c ∈ breakMarks, p c = false) (n : Nat) :
    ((a ++ b).take n).takeWhile p = (a.take n).takeWhile p := by
  rw [List.take_append]
  exact (h.take _).takeWhile_append hp

theorem isHexDigit_of_mem : ∀ c ∈ breakMarks, isHexDigit c = false :=
  forall_mem_breakMarks.mpr ⟨rfl, rfl, rfl, rfl⟩

theorem readCodeUnit_of_ne (h : text.head? ≠ some '\x7b') : readCodeUnit text =
    if (text.take 4).length == 4 && (text.take 4).all isHexDigit then
      .ok (hexNumber (text.take 4), 4)
    else .error .invalidUnicodeEscape := by
  unfold readCodeUnit
  split
  · exact absurd rfl h
  · rfl

/-- Of four characters all are before a mark, or not all are digits. -/
theorem Breaks.take_four (h : Breaks b) : (a ++ b).take 4 = a.take 4 ∨
    ((a ++ b).take 4).all isHexDigit = false ∧ (a.take 4).length < 4 := by
  rw [List.take_append]
  rcases (h.take (4 - a.length)).cases with hnil | ⟨c, rest, hcons, hc⟩
  · rw [hnil, List.append_nil]
    exact .inl rfl
  · have hshort : a.length < 4 := by
      refine Nat.lt_of_not_le fun hle => ?_
      rw [Nat.sub_eq_zero_of_le hle] at hcons
      cases hcons
    rw [hcons]
    refine .inr ⟨?_, ?_⟩
    · rw [List.all_append, List.all_cons, isHexDigit_of_mem c hc, Bool.false_and, Bool.and_false]
    · rw [List.length_take]
      exact Nat.lt_of_le_of_lt (Nat.min_le_right _ _) hshort

theorem Breaks.readCodeUnit_append (h : Breaks b) : readCodeUnit (a ++ b) = readCodeUnit a := by
  by_cases hbrace : a.head? = some '\x7b'
  · obtain ⟨a, rfl⟩ := List.head?_eq_some_iff.mp hbrace
    have hdigits : (a ++ b).takeWhile isHexDigit = a.takeWhile isHexDigit :=
      h.takeWhile_append isHexDigit_of_mem
    have hclosed : ((a ++ b)[(a.takeWhile isHexDigit).length]? != some '\x7d') =
        (a[(a.takeWhile isHexDigit).length]? != some '\x7d') := by
      rcases Nat.lt_or_eq_of_le (List.takeWhile_prefix isHexDigit).length_le with hlt | heq
      · rw [List.getElem?_append_left hlt]
      · rw [heq, getElem?_length_append, List.getElem?_eq_none (Nat.le_refl _)]
        rcases h.cases with rfl | ⟨c, rest, rfl, hc⟩
        · rfl
        · have hne : c ≠ '\x7d' := by
            rintro rfl
            exact absurd hc (by decide)
          exact bne_iff_ne.mpr fun heq => hne (Option.some.inj heq)
    rw [List.cons_append, readCodeUnit, readCodeUnit, hdigits, hclosed]
  · have hbefore : (a ++ b).head? ≠ some '\x7b' := by
      cases a with
      | cons c a => exact hbrace
      | nil =>
        intro hhead
        exact absurd (h _ hhead) (by decide)
    rw [readCodeUnit_of_ne hbrace, readCodeUnit_of_ne hbefore]
    rcases h.take_four with hsame | ⟨hall, hshort⟩
    · rw [hsame]
    · rw [hall, beq_eq_false_iff_ne.mpr (Nat.ne_of_lt hshort), Bool.and_false, Bool.false_and]
      rfl

/-- Another unit behind the number does not start with a mark. -/
theorem Breaks.readCodePoint_append (h : Breaks b) : readCodePoint (a ++ b) = readCodePoint a := by
  rw [readCodePoint, readCodePoint, h.readCodeUnit_append]
  cases hunit : readCodeUnit a with
  | error cause => rfl
  | ok found =>
    obtain ⟨code, length⟩ := found
    obtain ⟨spelled, rest, rfl, rfl, -⟩ := spells_of_readCodeUnit hunit
    dsimp only
    rw [List.append_assoc, List.drop_left, List.drop_left]
    by_cases hnext : ∃ more, rest = '\\' :: 'u' :: more
    · obtain ⟨more, rfl⟩ := hnext
      simp only [List.cons_append, h.readCodeUnit_append]
    · have hnot : ∀ more, rest ++ b ≠ '\\' :: 'u' :: more := by
        intro more heq
        rcases rest with - | ⟨c, - | ⟨d, rest⟩⟩
        · exact absurd (h '\\' (congrArg List.head? heq)) (by decide)
        · exact absurd (h 'u' (congrArg List.head? (List.cons.inj heq).2)) (by decide)
        · obtain ⟨rfl, htail⟩ := List.cons.inj heq
          obtain ⟨rfl, -⟩ := List.cons.inj htail
          exact hnext ⟨rest, rfl⟩
      split
      · split
        · rename_i heq
          exact absurd heq (hnot _)
        · split
          · exact absurd ⟨_, rfl⟩ hnext
          · rfl
      · rfl

/-- An escape is read up to a mark, if it is not a carriage return that is escaped. -/
theorem Breaks.readEscape_append (h : Breaks b) (hc : c ≠ '\r') :
    readEscape (c :: (a ++ b)) = readEscape (c :: a) := by
  by_cases hhex : c = 'x'
  · subst hhex
    have hnone : ∀ {d}, d ∈ breakMarks → hexValue? d = none := by
      intro d hd
      simpa [isHexDigit] using isHexDigit_of_mem d hd
    rcases a with - | ⟨d, - | ⟨d', a⟩⟩
    · rcases h.cases with rfl | ⟨d, - | ⟨d', rest⟩, rfl, hd⟩
      · rfl
      · rfl
      · rw [List.nil_append, readEscape_hex, hnone hd]
        rfl
    · rcases h.cases with rfl | ⟨d', rest, rfl, hd⟩
      · rfl
      · rw [List.cons_append, List.nil_append, readEscape_hex, hnone hd]
        split
        · rename_i hhex
          cases hhex
        · rfl
    · rfl
  · have hdigit : (a ++ b).head?.any isAsciiDigit = a.head?.any isAsciiDigit :=
      h.any_head? (forall_mem_breakMarks.mpr ⟨rfl, rfl, rfl, rfl⟩)
    have hoctal : readLegacyOctal c (a ++ b) = readLegacyOctal c a := by
      unfold readLegacyOctal
      rw [h.takeWhile_take (forall_mem_breakMarks.mpr ⟨rfl, rfl, rfl, rfl⟩)]
    have hreturn : (c == '\r') = false := beq_eq_false_iff_ne.mpr hc
    have hother : (c == 'x') = false := beq_eq_false_iff_ne.mpr hhex
    simp only [readEscape, hdigit, hoctal, hreturn, hother, h.readCodePoint_append,
      Bool.false_eq_true, if_false]

theorem readEscape_unbroken (hc : c ≠ '\r') (text : List Char) :
    readEscape (c :: text) = readEscape (c :: unbroken text) := by
  obtain ⟨rest, htext, hrest⟩ := exists_unbroken text
  have hread : readEscape (c :: (unbroken text ++ rest)) = _ := hrest.readEscape_append hc
  rwa [← htext] at hread

end LookAhead

section Chunks

variable {c : Char} {e : Escape} {p : Piece} {body : List Char} {chunk : Chunk}

/-- The pieces have the same value, and both or none of them are invalid escapes. -/
structure Piece.Alike (p q : Piece) : Prop where
  char : p.char? = q.char?
  invalid : p.invalidIndex?.isSome = q.invalidIndex?.isSome

/-- The chunks end alike and have the same value, and both or none have an invalid escape. -/
structure Chunk.Alike (a b : Chunk) : Prop where
  ending : a.ending = b.ending
  value : Piece.value a.pieces = Piece.value b.pieces
  invalid : a.invalidEscape?.isSome = b.invalidEscape?.isSome

theorem Chunk.isSome_invalidEscape?_cons (p : Piece) (chunk : Chunk) :
    (chunk.cons p).invalidEscape?.isSome =
    (p.invalidIndex?.isSome || chunk.invalidEscape?.isSome) := by
  rw [invalidEscape?, cons, List.findSome?_cons]
  cases p.invalidIndex? <;> rfl

theorem Chunk.Alike.cons {a b : Chunk} {p q : Piece} (h : a.Alike b) (hpiece : p.Alike q) :
    (a.cons p).Alike (b.cons q) := by
  refine ⟨h.ending, ?_, ?_⟩
  · change Piece.value (p :: a.pieces) = Piece.value (q :: b.pieces)
    rw [Piece.value, Piece.value, List.filterMap_cons, List.filterMap_cons, hpiece.char]
    rw [show a.pieces.filterMap Piece.char? = _ from h.value, Piece.value]
  · rw [isSome_invalidEscape?_cons, isSome_invalidEscape?_cons, hpiece.invalid, h.invalid]

/-- Before its delimiter the text is read as such a chunk, whatever stands behind the delimiter. -/
def ReadsChunk (body : List Char) (chunk : Chunk) : Prop :=
  ∀ index rest, (readChunkFrom index 0 (body ++ (chunk.ending.delimiter ++ rest))).Alike chunk ∧
    (readChunkFrom index 0 (body ++ (chunk.ending.delimiter ++ rest))).stop =
      index + body.length + chunk.ending.delimiter.length

theorem ReadsChunk.nil {ending : ChunkEnd} (hending : ending ≠ .unterminated) (stop : Nat) :
    ReadsChunk [] ⟨[], stop, ending⟩ := by
  intro index rest
  cases ending with
  | closed => exact ⟨⟨rfl, rfl, rfl⟩, rfl⟩
  | substitution => exact ⟨⟨rfl, rfl, rfl⟩, rfl⟩
  | unterminated => exact absurd rfl hending

/-- A first piece that takes some characters. -/
theorem ReadsChunk.cons (h : ReadsChunk body chunk) (spelled : List Char)
    (hread : ∀ index rest, ∃ q, q.Alike p ∧
      readChunkFrom index 0 (spelled ++ (body ++ (chunk.ending.delimiter ++ rest))) =
        (readChunkFrom (index + spelled.length) 0
          (body ++ (chunk.ending.delimiter ++ rest))).cons q) :
    ReadsChunk (spelled ++ body) (chunk.cons p) := by
  intro index rest
  have hending : (chunk.cons p).ending = chunk.ending := rfl
  obtain ⟨q, hpiece, hread⟩ := hread index rest
  obtain ⟨halike, hstop⟩ := h (index + spelled.length) rest
  rw [hending, List.append_assoc, hread]
  refine ⟨halike.cons hpiece, hstop.trans ?_⟩
  rw [List.length_append]
  omega

/-- A character that stands for itself, or a line feed for a line break. -/
theorem ReadsChunk.char (h : ReadsChunk body chunk) (hc : c ∉ ['\x60', '\\', '\r'])
    (hdollar : c = '$' → ∀ rest, (body ++ (chunk.ending.delimiter ++ rest)).head? ≠ some '\x7b')
    (hpiece : (Piece.plain c).Alike p) : ReadsChunk (c :: body) (chunk.cons p) := by
  simp only [List.mem_cons, List.not_mem_nil, or_false, not_or] at hc
  obtain ⟨hclose, hescape, hreturn⟩ := hc
  refine h.cons [c] fun index rest => ⟨.plain c, hpiece, ?_⟩
  have hopen :
      ¬(c == '$' && (body ++ (chunk.ending.delimiter ++ rest)).head? == some '\x7b') = true := by
    rw [Bool.and_eq_true, beq_iff_eq, beq_iff_eq]
    exact fun hboth => hdollar hboth.1 rest hboth.2
  rw [List.singleton_append, readChunkFrom, if_neg (by simpa using hclose), if_neg hopen,
    if_neg (by simpa using hescape), if_neg (by simpa using hreturn)]
  rfl

theorem readChunkFrom_skip (spelled text : List Char) : ∀ index,
    readChunkFrom index spelled.length (spelled ++ text) =
      readChunkFrom (index + spelled.length) 0 text := by
  induction spelled with
  | nil => exact fun index => rfl
  | cons c spelled ih =>
    intro index
    rw [List.cons_append, List.length_cons, readChunkFrom, ih]
    congr 1
    omega

theorem readChunkFrom_backslash (index : Nat) (text : List Char) :
    readChunkFrom index 0 ('\\' :: text) = match readEscape text with
      | .error .unterminated => ⟨[], index, .unterminated⟩
      | .error (.malformed _) => (readChunkFrom (index + 1) 1 text).cons (.invalid index)
      | .ok (.legacy _, _) => (readChunkFrom (index + 1) 1 text).cons (.invalid index)
      | .ok (escape, length) => (readChunkFrom (index + 1) length text).cons (.escape escape) := rfl

/-- An escape that has a value in a template. -/
theorem ReadsChunk.escape (h : ReadsChunk body chunk) (spelled : List Char)
    (hlegacy : ∀ c, e ≠ .legacy c)
    (hread : ∀ rest, readEscape (spelled ++ (body ++ (chunk.ending.delimiter ++ rest))) =
      .ok (e, spelled.length)) : ReadsChunk ('\\' :: (spelled ++ body))
        (chunk.cons (.escape e)) := by
  refine h.cons ('\\' :: spelled) fun index rest => ⟨.escape e, ⟨rfl, rfl⟩, ?_⟩
  rw [List.cons_append, readChunkFrom_backslash, hread, List.length_cons,
    Nat.add_comm spelled.length, ← Nat.add_assoc, ← readChunkFrom_skip]
  cases e with
  | legacy c => exact absurd rfl (hlegacy c)
  | char | codePoint | continuation => rfl

/-- The escape at the start of the text has no value in a template. -/
def LacksValue (text : List Char) : Prop :=
  (∃ cause, readEscape text = .error (.malformed cause)) ∨
    ∃ c length, readEscape text = .ok (.legacy c, length)

/-- The character behind the backslash is not read again, while those after it are. -/
theorem ReadsChunk.invalid (h : ReadsChunk body chunk) (index : Nat)
    (hlacks : ∀ rest, LacksValue (c :: (body ++ (chunk.ending.delimiter ++ rest)))) :
    ReadsChunk ('\\' :: c :: body) (chunk.cons (.invalid index)) := by
  refine h.cons ['\\', c] fun index rest => ⟨.invalid index, ⟨rfl, rfl⟩, ?_⟩
  rw [List.cons_append, List.singleton_append, readChunkFrom_backslash]
  rcases hlacks rest with ⟨cause, hread⟩ | ⟨d, length, hread⟩
  · rw [hread]
    rfl
  · rw [hread]
    rfl

end Chunks

section Reading

variable {c : Char} {e : Escape} {ending : ChunkEnd} {text body rest : List Char} {chunk : Chunk}
  {length : Nat}

theorem unbroken_delimiter (h : ending ≠ .unterminated) (body rest : List Char) :
    unbroken (body ++ (ending.delimiter ++ rest)) = unbroken body := by
  cases ending with
  | closed => exact unbroken_append (by decide) body rest
  | substitution => exact unbroken_append (by decide) body _
  | unterminated => exact absurd rfl h

/-- What is read behind a backslash is the same before the raw text of a chunk. -/
theorem readEscape_raw (hc : c ≠ '\r') (h : ending ≠ .unterminated) (body rest rest' : List Char) :
    readEscape (c :: (normalizeLineBreaks body ++ (ending.delimiter ++ rest'))) =
      readEscape (c :: (body ++ (ending.delimiter ++ rest))) := by
  rw [readEscape_unbroken hc, readEscape_unbroken hc (body ++ _), unbroken_delimiter h,
    unbroken_delimiter h, unbroken_normalizeLineBreaks]

/-- The text starts with a chunk, and its raw text is read as the same chunk. -/
def StartsChunk (text rest : List Char) (chunk : Chunk) : Prop :=
  ∃ body, text = body ++ (chunk.ending.delimiter ++ rest) ∧
    ReadsChunk (normalizeLineBreaks body) chunk

theorem StartsChunk.nil (hending : ending ≠ .unterminated) (stop : Nat) (rest : List Char) :
    StartsChunk (ending.delimiter ++ rest) rest ⟨[], stop, ending⟩ :=
  ⟨[], rfl, .nil hending stop⟩

theorem head?_of_unbroken {a b : List Char} (h : unbroken a = unbroken b) (hc : c ∉ breakMarks)
    (ha : a.head? = some c) : b.head? = some c := by
  obtain ⟨a, rfl⟩ := List.head?_eq_some_iff.mp ha
  obtain ⟨after, hb, -⟩ := exists_unbroken b
  rw [hb, ← h, unbroken_cons hc]
  rfl

theorem StartsChunk.plain (h : StartsChunk text rest chunk) (hending : chunk.ending ≠ .unterminated)
    (hc : c ∉ ['\x60', '\\', '\r']) (hdollar : c = '$' → text.head? ≠ some '\x7b') :
    StartsChunk (c :: text) rest (chunk.cons (.plain c)) := by
  obtain ⟨body, rfl, hraw⟩ := h
  have hreturn : c ≠ '\r' := by
    rintro rfl
    exact hc (by decide)
  refine ⟨c :: body, rfl, ?_⟩
  rw [normalizeLineBreaks_cons hreturn]
  refine hraw.char hc (fun hopen rest' hhead => hdollar hopen ?_) ⟨rfl, rfl⟩
  refine head?_of_unbroken ?_ (by decide) hhead
  rw [unbroken_delimiter hending, unbroken_delimiter hending, unbroken_normalizeLineBreaks]

/-- A carriage return is a line feed of the raw text, together with one behind it. -/
theorem exists_return (h : text.drop (if text.head? = some '\n' then 1 else 0) = body ++ rest) :
    ∃ longer, '\r' :: text = longer ++ rest ∧
      normalizeLineBreaks longer = '\n' :: normalizeLineBreaks body := by
  split at h
  · rename_i hfeed
    obtain ⟨text, rfl⟩ := List.head?_eq_some_iff.mp hfeed
    exact ⟨'\r' :: '\n' :: body, congrArg ('\r' :: '\n' :: ·) h, rfl⟩
  · rename_i hfeed
    refine ⟨'\r' :: body, congrArg ('\r' :: ·) h, ?_⟩
    have hbody : body.head? ≠ some '\n' := by
      intro hbody
      obtain ⟨body, rfl⟩ := List.head?_eq_some_iff.mp hbody
      rw [List.drop_zero] at h
      exact hfeed (by rw [h]; rfl)
    rw [normalizeLineBreaks_return, if_neg hbody, List.drop_zero]

theorem StartsChunk.lineBreak
    (h : StartsChunk (text.drop (if text.head? = some '\n' then 1 else 0)) rest chunk) :
    StartsChunk ('\r' :: text) rest (chunk.cons .lineBreak) := by
  obtain ⟨body, hbody, hraw⟩ := h
  obtain ⟨longer, hlonger, hbreak⟩ := exists_return hbody
  refine ⟨longer, hlonger, ?_⟩
  rw [hbreak]
  exact hraw.char (by decide) (fun hfeed => absurd hfeed (by decide)) ⟨rfl, rfl⟩

theorem StartsChunk.escape (h : StartsChunk (text.drop length) rest chunk)
    (hending : chunk.ending ≠ .unterminated) (hread : readEscape text = .ok (e, length))
    (hlegacy : ∀ c, e ≠ .legacy c) : StartsChunk ('\\' :: text) rest (chunk.cons (.escape e)) := by
  obtain ⟨body, hbody, hraw⟩ := h
  rcases text with - | ⟨c, text⟩
  · cases hread
  by_cases hc : c = '\r'
  · -- A line break that is left out is one character of the raw text.
    subst hc
    have hcontinued : readEscape ('\r' :: text) =
        .ok (.continuation, (if text.head? = some '\n' then 1 else 0) + 1) := by
      change Except.ok (Escape.continuation, if text.head? == some '\n' then 2 else 1) = _
      by_cases hfeed : text.head? = some '\n' <;> simp [hfeed]
    cases hread.symm.trans hcontinued
    rw [List.drop_succ_cons] at hbody
    obtain ⟨longer, hlonger, hbreak⟩ := exists_return hbody
    refine ⟨'\\' :: longer, congrArg ('\\' :: ·) hlonger, ?_⟩
    rw [normalizeLineBreaks_cons (by decide), hbreak]
    exact hraw.escape ['\n'] hlegacy fun rest => rfl
  · -- Behind its first character the escape has no marks.
    have hunbroken := (readEscape_unbroken hc text).symm.trans hread
    obtain ⟨d, more, after, heq, rfl⟩ := exists_cons_of_readEscape hunbroken
    obtain ⟨rfl, hmore⟩ := List.cons.inj heq
    obtain ⟨tail, htext, -⟩ := exists_unbroken text
    rw [hmore, List.append_assoc] at htext
    rw [htext, List.length_cons, List.drop_succ_cons, List.drop_left] at hbody
    rw [hbody] at htext
    subst htext
    have hreturn : '\r' ∉ more := by
      intro hmem
      have hinside := List.mem_append_left after hmem
      rw [← hmore] at hinside
      exact not_mem_breakMarks_of_unbroken hinside (by decide)
    refine ⟨'\\' :: c :: (more ++ body), by simp [Chunk.cons], ?_⟩
    rw [normalizeLineBreaks_cons (by decide), normalizeLineBreaks_cons hc,
      normalizeLineBreaks_append hreturn]
    refine hraw.escape (c :: more) hlegacy fun rest' => ?_
    have hsame := readEscape_raw hc hending (more ++ body) rest rest'
    rw [normalizeLineBreaks_append hreturn, List.append_assoc, List.append_assoc, hread] at hsame
    exact hsame

theorem StartsChunk.invalid (h : StartsChunk (text.drop 1) rest chunk)
    (hending : chunk.ending ≠ .unterminated) (index : Nat) (hlacks : LacksValue text) :
    StartsChunk ('\\' :: text) rest (chunk.cons (.invalid index)) := by
  rcases text with - | ⟨c, text⟩
  · rcases hlacks with ⟨cause, hread⟩ | ⟨d, length, hread⟩ <;> cases hread
  obtain ⟨body, hbody, hraw⟩ := h
  obtain rfl : text = body ++ (chunk.ending.delimiter ++ rest) := hbody
  have hc : c ≠ '\r' := by
    rintro rfl
    rcases hlacks with ⟨cause, hread⟩ | ⟨d, length, hread⟩ <;> cases hread
  refine ⟨'\\' :: c :: body, rfl, ?_⟩
  rw [normalizeLineBreaks_cons (by decide), normalizeLineBreaks_cons hc]
  refine hraw.invalid index fun rest' => ?_
  rw [LacksValue, readEscape_raw hc hending body rest rest']
  exact hlacks

/-- What is read as a chunk up to a delimiter is such a chunk in its raw text too. -/
theorem startsChunk_of_readChunkFrom (text : List Char) : ∀ index skip,
    (readChunkFrom index skip text).ending ≠ .unterminated → ∃ rest,
      StartsChunk (text.drop skip) rest (readChunkFrom index skip text) ∧
        (readChunkFrom index skip text).stop + rest.length = index + text.length := by
  induction text with
  | nil =>
    intro index skip hending
    unfold readChunkFrom at hending
    exact absurd rfl hending
  | cons c text ih =>
    intro index skip
    have hlater : ∀ skip, (readChunkFrom (index + 1) skip text).ending ≠ .unterminated → ∃ rest,
        StartsChunk (text.drop skip) rest (readChunkFrom (index + 1) skip text) ∧
          (readChunkFrom (index + 1) skip text).stop + rest.length =
            index + (c :: text).length := by
      intro skip hending
      obtain ⟨rest, hstarts, hstop⟩ := ih (index + 1) skip hending
      refine ⟨rest, hstarts, hstop.trans ?_⟩
      rw [List.length_cons]
      omega
    -- A first piece before the chunk that is read after it.
    have hnext : ∀ skip piece,
        ((readChunkFrom (index + 1) skip text).cons piece).ending ≠ .unterminated →
        (∀ rest, StartsChunk (text.drop skip) rest (readChunkFrom (index + 1) skip text) →
          StartsChunk (c :: text) rest ((readChunkFrom (index + 1) skip text).cons piece)) →
        ∃ rest, StartsChunk (c :: text) rest ((readChunkFrom (index + 1) skip text).cons piece) ∧
          ((readChunkFrom (index + 1) skip text).cons piece).stop + rest.length =
            index + (c :: text).length := by
      intro skip piece hending hstep
      obtain ⟨rest, hstarts, hstop⟩ := hlater skip hending
      exact ⟨rest, hstep rest hstarts, hstop⟩
    cases skip with
    | succ skip =>
      rw [readChunkFrom]
      exact hlater skip
    | zero =>
      rw [readChunkFrom, List.drop_zero]
      split
      · rename_i hclose
        obtain rfl := beq_iff_eq.mp hclose
        refine fun hending => ⟨text, .nil hending _ text, ?_⟩
        change index + 1 + text.length = index + (text.length + 1)
        omega
      rename_i hclose
      split
      · rename_i hopen
        rw [Bool.and_eq_true, beq_iff_eq, beq_iff_eq] at hopen
        obtain ⟨rfl, hbrace⟩ := hopen
        obtain ⟨text, rfl⟩ := List.head?_eq_some_iff.mp hbrace
        refine fun hending => ⟨text, .nil hending _ text, ?_⟩
        change index + 2 + text.length = index + (text.length + 1 + 1)
        omega
      rename_i hopen
      split
      · rename_i hbackslash
        obtain rfl := beq_iff_eq.mp hbackslash
        split
        · exact fun hending => absurd rfl hending
        · rename_i cause hread
          refine fun hending => hnext 1 _ hending fun rest hstarts =>
            hstarts.invalid hending index ?_
          exact .inl ⟨cause, hread⟩
        · rename_i d length hread
          refine fun hending => hnext 1 _ hending fun rest hstarts =>
            hstarts.invalid hending index ?_
          exact .inr ⟨d, length, hread⟩
        · rename_i e length hlegacy hread
          exact fun hending => hnext length _ hending fun rest hstarts =>
            hstarts.escape hending hread hlegacy
      rename_i hbackslash
      split
      · rename_i hreturn
        obtain rfl := beq_iff_eq.mp hreturn
        refine fun hending => hnext _ _ hending fun rest hstarts => .lineBreak ?_
        simpa using hstarts
      · rename_i hreturn
        refine fun hending => hnext _ _ hending fun rest hstarts => hstarts.plain hending ?_ ?_
        · simp only [List.mem_cons, List.not_mem_nil, or_false, not_or]
          simp only [beq_iff_eq] at hclose hbackslash hreturn
          exact ⟨hclose, hbackslash, hreturn⟩
        · rw [Bool.and_eq_true, beq_iff_eq, beq_iff_eq] at hopen
          exact fun hc hbrace => hopen ⟨hc, hbrace⟩

/-- A chunk that is closed is that of a text before its delimiter, and of the raw text too. -/
theorem readsChunk_of_readChunk (hending : (readChunk text).ending ≠ .unterminated) : ∃ body rest,
    text = body ++ ((readChunk text).ending.delimiter ++ rest) ∧
      (readChunk text).stop = 1 + body.length + (readChunk text).ending.delimiter.length ∧
        ReadsChunk (normalizeLineBreaks body) (readChunk text) := by
  obtain ⟨rest, ⟨body, hbody, hraw⟩, hstop⟩ := startsChunk_of_readChunkFrom text 1 0 hending
  rw [List.drop_zero] at hbody
  refine ⟨body, rest, hbody, ?_, hraw⟩
  have hlength := congrArg List.length hbody
  rw [List.length_append, List.length_append] at hlength
  change (readChunkFrom 1 0 text).stop =
    1 + body.length + (readChunkFrom 1 0 text).ending.delimiter.length
  omega

end Reading

end EcmaSyntax.Lexer
