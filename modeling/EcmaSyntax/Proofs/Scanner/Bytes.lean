import EcmaSyntax.Proofs.Text.Boundary
import EcmaSyntax.Scanner.Trivia

/-!
Bytes of characters. A character of ASCII is one byte. Any other one is a leading byte with
further bytes after it, none of which belongs to ASCII, and no byte but the first can lead a
character; so what is asked of bytes is answered by the characters they belong to.
-/

namespace EcmaSyntax.Scanner

open EcmaSyntax.Text EcmaSyntax.Unicode

section Encoding

theorem utf8_cons (c : Char) (rest : List Char) :
    utf8 (c :: rest) = String.utf8EncodeChar c ++ utf8 rest := rfl

theorem utf8_append (a b : List Char) : utf8 (a ++ b) = utf8 a ++ utf8 b := List.flatMap_append

theorem length_utf8 (text : List Char) : (utf8 text).length = byteLength text := by
  induction text with
  | nil => rfl
  | cons c rest ih => rw [utf8_cons, List.length_append, String.length_utf8EncodeChar, ih,
    byteLength]

theorem utf8Size_of_isAscii {c : Char} (h : isAscii c = true) : c.utf8Size = 1 := by
  have hlt : c.toNat < 0x80 := of_decide_eq_true h
  rw [Char.utf8Size_eq_one_iff, UInt32.le_iff_toNat_le]
  exact Nat.le_of_lt_succ hlt

theorem utf8EncodeChar_of_isAscii {c : Char} (h : isAscii c = true) :
    String.utf8EncodeChar c = [c.toUInt8] :=
  String.utf8EncodeChar_eq_singleton (utf8Size_of_isAscii h)

theorem ofUInt8_toUInt8 {c : Char} (h : isAscii c = true) : Char.ofUInt8 c.toUInt8 = c := by
  have hlt : c.toNat < 0x80 := of_decide_eq_true h
  refine Char.ext (UInt32.toNat_inj.mp ?_)
  change c.toNat % 256 = c.toNat
  omega

theorem utf8_cons_of_isAscii {c : Char} (h : isAscii c = true) (rest : List Char) :
    utf8 (c :: rest) = c.toUInt8 :: utf8 rest := by
  rw [utf8_cons, utf8EncodeChar_of_isAscii h]
  rfl

theorem byteLength_of_isAscii {text : List Char} (h : ∀ c ∈ text, isAscii c = true) :
    byteLength text = text.length := by
  induction text with
  | nil => rfl
  | cons c rest ih =>
    rw [List.forall_mem_cons] at h
    rw [byteLength, utf8Size_of_isAscii h.1, ih h.2, List.length_cons, Nat.add_comm]

theorem byteLength_drop_lt (text : List Char) {n : Nat} (hn : 0 < n) (hle : n ≤ text.length) :
    byteLength (text.drop n) < byteLength text := by
  have hsplit := congrArg byteLength (List.take_append_drop n text)
  have hpos : 0 < byteLength (text.take n) := byteLength_pos (by
    rw [← List.length_pos_iff, List.length_take]
    omega)
  rw [byteLength_append] at hsplit
  omega

/-- A character beyond ASCII is a leading byte with further bytes after it. -/
theorem exists_lead {c : Char} (h : isAscii c = false) : ∃ lead more,
    String.utf8EncodeChar c = lead :: more ∧ 0xC0 ≤ lead.toNat ∧
      ∀ b ∈ more, 0x80 ≤ b.toNat ∧ b.toNat < 0xC0 := by
  have hge : ¬ c.val.toNat ≤ 0x7f := fun hle =>
    of_decide_eq_false h (Nat.lt_succ_of_le hle)
  unfold String.utf8EncodeChar
  simp only [if_neg hge]
  split
  · refine ⟨_, _, rfl, ?_, ?_⟩
    · simp only [UInt8.toNat_ofNat']
      omega
    · simp only [List.forall_mem_cons, List.not_mem_nil, UInt8.toNat_ofNat', false_imp_iff,
        implies_true, and_true]
      omega
  · split
    · refine ⟨_, _, rfl, ?_, ?_⟩
      · simp only [UInt8.toNat_ofNat']
        omega
      · simp only [List.forall_mem_cons, List.not_mem_nil, UInt8.toNat_ofNat', false_imp_iff,
          implies_true, and_true]
        omega
    · refine ⟨_, _, rfl, ?_, ?_⟩
      · simp only [UInt8.toNat_ofNat']
        omega
      · simp only [List.forall_mem_cons, List.not_mem_nil, UInt8.toNat_ofNat', false_imp_iff,
          implies_true, and_true]
        omega

end Encoding

section Wide

variable {c x : Char}

theorem ne_of_wide (hc : isAscii c = false) (hx : isAscii x = true) : c ≠ x := by
  rintro rfl
  rw [hx] at hc
  cases hc

theorem beq_wide (hc : isAscii c = false) (hx : isAscii x = true) : (c == x) = false :=
  beq_eq_false_iff_ne.mpr (ne_of_wide hc hx)

theorem le_wide (hc : isAscii c = false) (hx : isAscii x = true) : decide (c ≤ x) = false := by
  have hge : ¬ c.toNat < 0x80 := of_decide_eq_false hc
  have hlt : x.toNat < 0x80 := of_decide_eq_true hx
  rw [decide_eq_false_iff_not]
  intro hle
  have hnat : c.toNat ≤ x.toNat := hle
  omega

theorem isAsciiDigit_wide (hc : isAscii c = false) : isAsciiDigit c = false := by
  rw [isAsciiDigit, le_wide hc (by decide), Bool.and_false]

theorem isAsciiLetter_wide (hc : isAscii c = false) : isAsciiLetter c = false := by
  rw [isAsciiLetter, le_wide hc (by decide), le_wide hc (by decide), Bool.and_false, Bool.and_false,
    Bool.or_false]

theorem isDigitIn_wide (hc : isAscii c = false) (radix : Nat) : isDigitIn radix c = false := by
  unfold isDigitIn
  split
  · rw [beq_wide hc (by decide), beq_wide hc (by decide), Bool.or_false]
  · rw [le_wide hc (by decide), Bool.and_false]
  · exact isAsciiDigit_wide hc
  · rw [isAsciiDigit_wide hc, le_wide hc (by decide), le_wide hc (by decide), Bool.and_false,
      Bool.and_false, Bool.or_false, Bool.or_false]

theorem hexValue?_wide (hc : isAscii c = false) : hexValue? c = none := by
  unfold hexValue?
  have hdigit := isAsciiDigit_wide hc
  have hlower : decide (c ≤ 'f') = false := le_wide hc (by decide)
  have hupper : decide (c ≤ 'F') = false := le_wide hc (by decide)
  simp only [hdigit, hlower, hupper, Bool.and_false, Bool.false_eq_true, if_false]

end Wide

section Reading

/-- The byte of a text some places on. -/
def byteOf? (text : List Char) (count : Nat) : Option Char :=
  (utf8 text)[count]?.map Char.ofUInt8

/-- As `byteOf?`, with the byte that is zero beyond the end. -/
def ahead (text : List Char) (count : Nat) : Char := (byteOf? text count).getD '\x00'

variable {c : Char} {rest : List Char} {count : Nat}

theorem byteOf?_cons_zero (h : isAscii c = true) : byteOf? (c :: rest) 0 = some c := by
  rw [byteOf?, utf8_cons_of_isAscii h, List.getElem?_cons_zero, Option.map_some, ofUInt8_toUInt8 h]

theorem byteOf?_cons_succ (h : isAscii c = true) :
    byteOf? (c :: rest) (count + 1) = byteOf? rest count := by
  rw [byteOf?, utf8_cons_of_isAscii h, List.getElem?_cons_succ, byteOf?]

theorem isAscii_ofUInt8 {b : UInt8} : isAscii (Char.ofUInt8 b) = decide (b.toNat < 0x80) := rfl

/-- No byte of a character beyond ASCII belongs to ASCII. -/
theorem byteOf?_wide (rest : List Char) (h : isAscii c = false) (hcount : count < c.utf8Size) :
    ∃ b, byteOf? (c :: rest) count = some b ∧ isAscii b = false := by
  obtain ⟨lead, more, hbytes, hlead, hmore⟩ := exists_lead h
  have hlength : (String.utf8EncodeChar c).length = c.utf8Size := String.length_utf8EncodeChar c
  have hlt : count < (String.utf8EncodeChar c).length := by omega
  refine ⟨Char.ofUInt8 (String.utf8EncodeChar c)[count], ?_, ?_⟩
  · rw [byteOf?, utf8_cons, List.getElem?_append_left hlt, List.getElem?_eq_getElem hlt]
    rfl
  · have hmem := List.getElem_mem hlt
    generalize (String.utf8EncodeChar c)[count] = b at hmem ⊢
    rw [hbytes] at hmem
    rw [isAscii_ofUInt8, decide_eq_false_iff_not]
    rcases List.mem_cons.mp hmem with rfl | hb
    · omega
    · have hrange := hmore b hb
      omega

/-- A byte of a character is no byte of ASCII unless it is the character itself. -/
theorem byteOf?_within (rest : List Char) (hcount : count < c.utf8Size) :
    ∃ b, byteOf? (c :: rest) count = some b ∧ ∀ x, isAscii x = true → b = x → c = x := by
  cases h : isAscii c with
  | true =>
    rw [utf8Size_of_isAscii h] at hcount
    obtain rfl : count = 0 := by omega
    exact ⟨c, byteOf?_cons_zero h, fun _ _ hx => hx⟩
  | false =>
    obtain ⟨b, hb, hwide⟩ := byteOf?_wide rest h hcount
    refine ⟨b, hb, fun x hx hbx => ?_⟩
    rw [hbx, hx] at hwide
    cases hwide

theorem ahead_cons_succ (h : isAscii c = true) :
    ahead (c :: rest) (count + 1) = ahead rest count := by
  rw [ahead, byteOf?_cons_succ h, ahead]

/-- What holds of nothing but characters of ASCII can be asked of the first byte. -/
theorem any_ahead {p : Char → Bool} (hzero : p '\x00' = false)
    (hwide : ∀ c, isAscii c = false → p c = false) (text : List Char) :
    p (ahead text 0) = text.head?.any p := by
  cases text with
  | nil => exact hzero
  | cons c rest =>
    cases h : isAscii c with
    | true => rw [ahead, byteOf?_cons_zero h, Option.getD_some, List.head?_cons, Option.any_some]
    | false =>
      obtain ⟨b, hb, hbwide⟩ := byteOf?_wide rest h c.utf8Size_pos
      rw [ahead, hb, Option.getD_some, hwide b hbwide, List.head?_cons, Option.any_some, hwide c h]

/-- As `any_ahead`, for what characters of ASCII mean. -/
theorem bind_ahead {α : Type} {f : Char → Option α} (hzero : f '\x00' = none)
    (hwide : ∀ c, isAscii c = false → f c = none) (text : List Char) :
    f (ahead text 0) = text.head?.bind f := by
  cases text with
  | nil => exact hzero
  | cons c rest =>
    cases h : isAscii c with
    | true => rw [ahead, byteOf?_cons_zero h, Option.getD_some, List.head?_cons, Option.bind_some]
    | false =>
      obtain ⟨b, hb, hbwide⟩ := byteOf?_wide rest h c.utf8Size_pos
      rw [ahead, hb, Option.getD_some, hwide b hbwide, List.head?_cons, Option.bind_some, hwide c h]

/-- A character of ASCII comes next. -/
theorem ahead_beq {x : Char} (hx : isAscii x = true) (hzero : x ≠ '\x00') (text : List Char) :
    (ahead text 0 == x) = (text.head? == some x) := by
  have h := any_ahead (p := (· == x)) (by simpa using hzero.symm) (fun _ hc => beq_wide hc hx) text
  rw [h]
  cases text <;> simp

theorem ahead_bne {x : Char} (hx : isAscii x = true) (hzero : x ≠ '\x00') (text : List Char) :
    (ahead text 0 != x) = (text.head? != some x) :=
  congrArg not (ahead_beq hx hzero text)

end Reading

section Separators

variable {c : Char}

/-- Bytes begin with one character at most. -/
theorem eq_of_utf8EncodeChar_append {c d : Char} {a b : List UInt8}
    (h : String.utf8EncodeChar c ++ a = String.utf8EncodeChar d ++ b) : c = d := by
  have hdecode : ∀ (c : Char) (a : List UInt8),
      (String.utf8EncodeChar c ++ a).toByteArray.utf8DecodeChar? 0 = some c := fun c a => by
    rw [List.toByteArray_append]
    exact ByteArray.utf8DecodeChar?_utf8EncodeChar_append
  have hc := hdecode c a
  rw [h, hdecode d b] at hc
  exact (Option.some.inj hc).symm

theorem startsSeparator_iff (bytes : List UInt8) : startsSeparator bytes = true ↔
    ∃ c more, (c = '\u2028' ∨ c = '\u2029') ∧ bytes = String.utf8EncodeChar c ++ more := by
  constructor
  · intro h
    unfold startsSeparator at h
    split at h
    · rename_i last more
      rw [Bool.or_eq_true, beq_iff_eq, beq_iff_eq] at h
      rcases h with rfl | rfl
      · exact ⟨'\u2028', more, .inl rfl, rfl⟩
      · exact ⟨'\u2029', more, .inr rfl, rfl⟩
    · cases h
  · rintro ⟨c, more, rfl | rfl, rfl⟩ <;> rfl

/-- At the start of a character the bytes of a separator are the character. -/
theorem startsSeparator_utf8 (c : Char) (rest : List Char) :
    startsSeparator (utf8 (c :: rest)) = (c == '\u2028' || c == '\u2029') := by
  rw [Bool.eq_iff_iff, startsSeparator_iff, Bool.or_eq_true, beq_iff_eq, beq_iff_eq]
  constructor
  · rintro ⟨d, more, hd, hbytes⟩
    rw [eq_of_utf8EncodeChar_append hbytes]
    exact hd
  · exact fun hc => ⟨c, utf8 rest, hc, rfl⟩

/-- Inside of a character no separator starts. -/
theorem startsSeparator_within (rest : List Char) {count : Nat} (hcount : count + 1 < c.utf8Size) :
    startsSeparator ((utf8 (c :: rest)).drop (count + 1)) = false := by
  have hlength : (String.utf8EncodeChar c).length = c.utf8Size := String.length_utf8EncodeChar c
  cases hc : isAscii c with
  | true =>
    rw [utf8Size_of_isAscii hc] at hcount
    omega
  | false =>
    obtain ⟨lead, more, hbytes, -, hmore⟩ := exists_lead hc
    rw [hbytes, List.length_cons] at hlength
    have hlt : count < more.length := by omega
    have hdrop : (utf8 (c :: rest)).drop (count + 1) =
        more[count] :: (more.drop (count + 1) ++ utf8 rest) := by
      rw [utf8_cons, hbytes, List.cons_append, List.drop_succ_cons,
        List.drop_append_of_le_length (Nat.le_of_lt hlt), List.drop_eq_getElem_cons hlt]
      rfl
    have hbyte := hmore _ (List.getElem_mem hlt)
    rw [hdrop, ← Bool.not_eq_true, startsSeparator_iff]
    rintro ⟨d, rest, rfl | rfl, hd⟩
    · rw [(List.cons.inj hd).1] at hbyte
      exact absurd hbyte.2 (by decide)
    · rw [(List.cons.inj hd).1] at hbyte
      exact absurd hbyte.2 (by decide)

theorem beq_ofUInt8 {x : Char} (b : UInt8) (hx : isAscii x = true) :
    (Char.ofUInt8 b == x) = (b == x.toUInt8) := by
  rw [Bool.eq_iff_iff, beq_iff_eq, beq_iff_eq]
  constructor
  · rintro rfl
    refine UInt8.toNat_inj.mp ?_
    change b.toNat = b.toNat % 256
    have hlt := b.toNat_lt
    omega
  · rintro rfl
    exact ofUInt8_toUInt8 hx

theorem isLineBreakByte_eq (b : UInt8) :
    isLineBreakByte b = (Char.ofUInt8 b == '\n' || Char.ofUInt8 b == '\r') := by
  rw [beq_ofUInt8 b (by decide), beq_ofUInt8 b (by decide), isLineBreakByte]

/-- The first byte of a character tells whether it is a line terminator, and no other one does. -/
theorem exists_drop (rest : List Char) {count : Nat} (hcount : count < c.utf8Size) :
    ∃ b more, (utf8 (c :: rest)).drop count = b :: more ∧
      (isLineBreakByte b || startsSeparator (b :: more)) = (count == 0 && isLineTerminator c) ∧
      ∀ x, isAscii x = true → (c == x) = false → (b == x.toUInt8) = false := by
  have hlt : count < (utf8 (c :: rest)).length := by
    rw [length_utf8, byteLength]
    omega
  obtain ⟨b, hb, hne⟩ := byteOf?_within rest hcount
  rw [byteOf?, List.getElem?_eq_getElem hlt, Option.map_some] at hb
  have hdrop := List.drop_eq_getElem_cons hlt
  generalize (utf8 (c :: rest))[count] = byte at hb hdrop
  obtain rfl := Option.some.inj hb
  have hother : ∀ x, isAscii x = true → (c == x) = false → (Char.ofUInt8 byte == x) = false :=
    fun x hx hcx => by
      rw [beq_eq_false_iff_ne] at hcx ⊢
      exact fun hbx => hcx (hne x hx hbx)
  refine ⟨byte, _, hdrop, ?_, fun x hx hcx => (beq_ofUInt8 byte hx).symm.trans (hother x hx hcx)⟩
  rw [← hdrop, isLineBreakByte_eq]
  cases hc : isAscii c with
  | true =>
    rw [utf8Size_of_isAscii hc] at hcount
    obtain rfl : count = 0 := Nat.lt_one_iff.mp hcount
    rw [List.drop_zero, utf8_cons_of_isAscii hc] at hdrop
    rw [← (List.cons.inj hdrop).1, ofUInt8_toUInt8 hc, List.drop_zero, startsSeparator_utf8,
      isLineTerminator, ← Bool.or_assoc]
    rfl
  | false =>
    rw [hother '\n' (by decide) (beq_wide hc (by decide)),
      hother '\r' (by decide) (beq_wide hc (by decide)), Bool.false_or, Bool.false_or]
    cases count with
    | zero =>
      rw [List.drop_zero, startsSeparator_utf8, isLineTerminator,
        beq_wide (x := '\n') hc (by decide),
        beq_wide (x := '\r') hc (by decide)]
      rfl
    | succ count =>
      rw [startsSeparator_within rest hcount]
      rfl

end Separators

end EcmaSyntax.Scanner
