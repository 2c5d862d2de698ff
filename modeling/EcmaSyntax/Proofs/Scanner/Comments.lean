import EcmaSyntax.Proofs.Lexer.Gap
import EcmaSyntax.Proofs.Scanner.Place

/-!
Comments on bytes. The ends of lines and of block comments are looked for byte by byte, and what is
found are the ends that the characters have.
-/

namespace EcmaSyntax.Scanner

open EcmaSyntax.Diagnostic EcmaSyntax.Lexer EcmaSyntax.Text EcmaSyntax.Unicode

variable {s s' : State} {before rest lead body : List Char} {c : Char}

section Ends

/-- Bytes at which a line goes on. -/
theorem lineEnd_drop {bytes : List UInt8} {count : Nat} (h : ∀ k < count, ∃ b more,
    bytes.drop k = b :: more ∧ (isLineBreakByte b || startsSeparator (b :: more)) = false) :
    lineEnd bytes = count + lineEnd (bytes.drop count) := by
  induction count generalizing bytes with
  | zero => rw [List.drop_zero, Nat.zero_add]
  | succ count ih =>
    obtain ⟨b, more, hdrop, hline⟩ := h 0 (Nat.succ_pos _)
    rw [List.drop_zero] at hdrop
    subst hdrop
    rw [lineEnd, hline, if_neg Bool.false_ne_true, ih fun k hk => h (k + 1) (Nat.succ_lt_succ hk)]
    rw [List.drop_succ_cons]
    omega

/-- The line ends where its characters end. -/
theorem lineEnd_utf8 (rest : List Char) : lineEnd (utf8 rest) = byteLength (lineBody rest) := by
  induction rest with
  | nil => rfl
  | cons c rest ih =>
    have hbytes : (utf8 (c :: rest)).drop c.utf8Size = utf8 rest := by
      rw [utf8_cons, ← String.length_utf8EncodeChar, List.drop_left]
    cases hc : isLineTerminator c with
    | true =>
      obtain ⟨b, more, hdrop, hline, -⟩ := exists_drop rest c.utf8Size_pos
      rw [List.drop_zero] at hdrop
      have hbody : lineBody (c :: rest) = [] := by
        rw [lineBody, List.takeWhile_cons_of_neg (by simp [hc])]
      rw [hbody, hdrop, lineEnd, hline, hc]
      rfl
    | false =>
      have hbody : lineBody (c :: rest) = c :: lineBody rest := by
        rw [lineBody, List.takeWhile_cons_of_pos (by simp [hc])]
        rfl
      rw [hbody, byteLength, ← ih, ← hbytes]
      refine lineEnd_drop fun k hk => ?_
      obtain ⟨b, more, hdrop, hline, -⟩ := exists_drop rest hk
      refine ⟨b, more, hdrop, ?_⟩
      rw [hline, hc, Bool.and_false]

theorem blockEnd?_cons (b : UInt8) (rest : List UInt8) : blockEnd? (b :: rest) =
    if b == '*'.toUInt8 && rest.head? == some '/'.toUInt8 then some 0
    else (blockEnd? rest).map (· + 1) := by
  cases rest with
  | nil =>
    rw [List.head?_nil, show (none == some '/'.toUInt8) = false from rfl, Bool.and_false]
    rfl
  | cons a rest => rfl

/-- Bytes at which no asterisk stands. -/
theorem blockEnd?_drop (bytes : List UInt8) (count : Nat) (h : ∀ k < count, ∃ b more,
    bytes.drop k = b :: more ∧ (b == '*'.toUInt8) = false) :
    blockEnd? bytes = (blockEnd? (bytes.drop count)).map (count + ·) := by
  induction count generalizing bytes with
  | zero => simp
  | succ count ih =>
    obtain ⟨b, more, hdrop, hstar⟩ := h 0 (Nat.succ_pos _)
    rw [List.drop_zero] at hdrop
    subst hdrop
    rw [blockEnd?_cons, hstar, Bool.false_and, if_neg Bool.false_ne_true,
      ih _ fun k hk => h (k + 1) (Nat.succ_lt_succ hk), Option.map_map, List.drop_succ_cons]
    congr 1
    funext n
    simp only [Function.comp]
    omega

theorem head?_utf8 {x : Char} (hx : isAscii x = true) (rest : List Char) :
    ((utf8 rest).head? == some x.toUInt8) = (rest.head? == some x) := by
  cases rest with
  | nil => rfl
  | cons c rest =>
    obtain ⟨b, more, hdrop, -, hne⟩ := exists_drop rest c.utf8Size_pos
    rw [List.drop_zero] at hdrop
    cases hc : c == x with
    | true =>
      obtain rfl : c = x := beq_iff_eq.mp hc
      rw [utf8_cons_of_isAscii hx]
      simp
    | false =>
      rw [hdrop, List.head?_cons, List.head?_cons, Option.some_beq_some, Option.some_beq_some, hc,
        hne x hx hc]

theorem blockBody?_cons (c : Char) (rest : List Char) : blockBody? (c :: rest) =
    if c == '*' && rest.head? == some '/' then some [] else (blockBody? rest).map (c :: ·) := by
  split
  · rename_i h
    rw [Bool.and_eq_true, beq_iff_eq, beq_iff_eq] at h
    obtain ⟨rfl, hslash⟩ := h
    obtain ⟨tail, rfl⟩ := List.head?_eq_some_iff.mp hslash
    rfl
  · rename_i h
    rw [blockBody?]
    rintro tail rfl rfl
    exact h rfl

/-- A comment ends where its characters end. -/
theorem blockEnd?_utf8 (rest : List Char) :
    blockEnd? (utf8 rest) = (blockBody? rest).map byteLength := by
  induction rest with
  | nil => rfl
  | cons c rest ih =>
    have hbytes : (utf8 (c :: rest)).drop c.utf8Size = utf8 rest := by
      rw [utf8_cons, ← String.length_utf8EncodeChar, List.drop_left]
    rw [blockBody?_cons]
    cases hc : c == '*' with
    | true =>
      obtain rfl : c = '*' := beq_iff_eq.mp hc
      rw [utf8_cons_of_isAscii (by decide), blockEnd?_cons, head?_utf8 (by decide), Bool.true_and,
        ih, beq_self_eq_true, Bool.true_and]
      split
      · rfl
      · rw [Option.map_map, Option.map_map]
        congr 1
        funext body
        exact Nat.add_comm _ _
    | false =>
      have hpassed := blockEnd?_drop (utf8 (c :: rest)) c.utf8Size fun k hk => by
        obtain ⟨b, more, hdrop, -, hne⟩ := exists_drop rest hk
        exact ⟨b, more, hdrop, hne '*' (by decide) hc⟩
      rw [hpassed, hbytes, ih, Bool.false_and, if_neg Bool.false_ne_true, Option.map_map,
        Option.map_map]
      rfl

theorem any_isLineBreakByte (text : List Char) :
    (utf8 text).any isLineBreakByte = text.any fun c => c == '\n' || c == '\r' := by
  induction text with
  | nil => rfl
  | cons c rest ih =>
    rw [utf8_cons, List.any_append, ih, List.any_cons]
    congr 1
    cases hc : isAscii c with
    | true =>
      rw [utf8EncodeChar_of_isAscii hc, List.any_cons, List.any_nil, Bool.or_false,
        isLineBreakByte_eq,
        ofUInt8_toUInt8 hc]
    | false =>
      rw [beq_wide hc (by decide), beq_wide hc (by decide), Bool.or_false, List.any_eq_false]
      intro b hb
      obtain ⟨lead, more, hbytes, hlead, hmore⟩ := exists_lead hc
      have hge : 0x80 ≤ b.toNat := by
        rw [hbytes, List.mem_cons] at hb
        rcases hb with rfl | hb
        · omega
        · exact (hmore b hb).1
      rw [isLineBreakByte, Bool.or_eq_true, beq_iff_eq, beq_iff_eq]
      rintro (rfl | rfl) <;> exact absurd hge (by decide)

theorem mem_separatorLead {text : List Char} (hc : c ∈ text) (hline : c = '\u2028' ∨ c = '\u2029') :
    separatorLead ∈ utf8 text := by
  refine List.mem_flatMap.mpr ⟨c, hc, ?_⟩
  rcases hline with rfl | rfl <;> decide

/-- What the bytes of a text tell about line terminators in it. -/
theorem hasLineBreak_eq {start stop : Nat} {text : List Char}
    (hbytes : (s.bytesFrom start).take (stop - start) = utf8 text)
    (hslice : Text.slice? s.source start stop = some text) :
    hasLineBreak start stop s = .ok (text.any isLineTerminator) s := by
  have hany : text.any isLineTerminator =
      (text.any (fun c => c == '\n' || c == '\r') || text.any fun c =>
        c == '\u2028' || c == '\u2029') := by
    rw [Bool.eq_iff_iff, Bool.or_eq_true, List.any_eq_true, List.any_eq_true, List.any_eq_true,
      ← exists_or]
    refine exists_congr fun c => ?_
    rw [← and_or_left, ← Bool.or_eq_true, ← Bool.or_assoc]
    rfl
  unfold hasLineBreak
  refine (bind_of_ok rfl).trans ?_
  rw [hbytes, any_isLineBreakByte]
  split
  · rename_i hline
    rw [hany, hline]
    rfl
  · rename_i hline
    rw [Bool.not_eq_true] at hline
    rw [hany, hline, Bool.false_or]
    split
    · exact (bind_of_ok (slice_eq hslice)).trans rfl
    · rename_i hlead
      have hnone : (text.any fun c => c == '\u2028' || c == '\u2029') = false := by
        rw [List.any_eq_false]
        intro c hc hmark
        rw [Bool.or_eq_true, beq_iff_eq, beq_iff_eq] at hmark
        exact hlead (List.contains_iff_mem.mpr (mem_separatorLead hc hmark))
      rw [hnone]
      rfl

end Ends

section Comments

variable {trivia : Trivia} {pos : Nat} {text : List Char}

/-- The state at an offset, after trivia. -/
def State.skipping (s : State) (trivia : Trivia) (pos : Nat) : State :=
  { s with
    pos := pos
    flags := { s.flags with lineBreakBefore := s.flags.lineBreakBefore || trivia.hasLineBreak }
    atLineStart := trivia.atLineStart
    comments := if s.collectComments then s.comments ++ trivia.comments else s.comments }

theorem State.skipping_pos (s : State) (trivia : Trivia) (pos : Nat) :
    (s.skipping trivia pos).pos = pos := rfl

theorem State.skipping_none (s : State) : s.skipping ⟨[], false, s.atLineStart, 0⟩ s.pos = s := by
  simp only [State.skipping, Bool.or_false, List.append_nil, ite_self]
theorem pushComment_eq {start stop : Nat} (trivia : Trivia) (pos : Nat) (kind : CommentKind)
    (value : Nat × Nat) (hslice : Text.slice? s.source value.1 value.2 = some text)
    (hstart : start % UInt32.size = start) (hstop : stop % UInt32.size = stop) :
    pushComment kind start stop value (s.skipping trivia pos) = .ok ()
      (s.skipping { trivia with
        comments := trivia.comments ++ [⟨kind, String.ofList text, start, stop⟩] } pos) := by
  unfold pushComment
  refine (bind_of_ok rfl).trans ?_
  cases hcollect : s.collectComments with
  | true =>
    have hcollects : (s.skipping trivia pos).collectComments = true := hcollect
    rw [if_pos hcollects]
    refine (bind_of_ok (slice_eq (s := s.skipping trivia pos) hslice)).trans ?_
    change EStateM.Result.ok () _ = _
    rw [hstart, hstop]
    simp only [State.skipping, hcollect, if_true, List.append_assoc]
  | false =>
    have hcollects : ¬ (s.skipping trivia pos).collectComments = true := by
      rw [show (s.skipping trivia pos).collectComments = s.collectComments from rfl, hcollect]
      exact Bool.false_ne_true
    rw [if_neg hcollects]
    change EStateM.Result.ok () _ = _
    simp only [State.skipping, hcollect, Bool.false_eq_true, if_false]

/-- A comment that ends with its line. -/
theorem skipLineComment_eq (opening : List Char) (kind : CommentKind)
    (h : At (s.skipping trivia pos) before (opening ++ rest))
    (hwidth : byteLength opening = opening.length) :
    skipLineComment opening.length kind (s.skipping trivia pos) = .ok () (s.skipping { trivia with
      comments := trivia.comments ++ [lineComment kind opening.length pos (opening ++ rest)] }
        (pos + byteLength ((opening ++ rest).take
          (opening.length + (lineBody ((opening ++ rest).drop opening.length)).length)))) := by
  have hbody : At ((s.skipping trivia pos).bump opening.length) (before ++ opening) rest :=
    hwidth ▸ h.bump
  obtain ⟨after, hrest, -⟩ := lineBody_spec rest
  have hpassed : byteLength ((opening ++ rest).take
      (opening.length + (lineBody ((opening ++ rest).drop opening.length)).length)) =
        opening.length + byteLength (lineBody rest) := by
    have htake : rest.take (lineBody rest).length = lineBody rest :=
      (List.prefix_iff_eq_take.mp ( List.takeWhile_prefix _)).symm
    rw [List.drop_left, List.take_length_add_append, htake, byteLength_append, hwidth]
  have hfind : findLineEnd (pos + opening.length) (s.skipping trivia pos) =
      .ok (pos + opening.length + byteLength (lineBody rest)) (s.skipping trivia pos) := by
    have hle : pos + opening.length ≤ (s.skipping trivia pos).bytes.length := by
      have hlength := hbody.length_bytes
      have hpos := hbody.pos
      change pos + opening.length = _ at hpos
      change (s.skipping trivia pos).bytes.length = _ at hlength
      omega
    have hend : (s.skipping trivia pos).bytesFrom (pos + opening.length) = utf8 rest :=
      hbody.bytesFrom
    unfold findLineEnd
    refine (bind_of_ok rfl).trans ?_
    rw [decide_eq_true hle, hend, lineEnd_utf8]
    rfl
  have hslice : Text.slice? s.source (pos + opening.length)
      (pos + opening.length + byteLength (lineBody rest)) = some (lineBody rest) := by
    have hend : At ((s.skipping trivia pos).bump opening.length) (before ++ opening)
        (lineBody rest ++ after) := by rwa [← hrest]
    have hcut := hend.bump.slice?
    rw [← hend.pos] at hcut
    exact hcut
  have hlast : pos + opening.length + byteLength (lineBody rest) ≤
      byteLength before + byteLength (opening ++ rest) := by
    have hpos := hbody.pos
    change pos + opening.length = _ at hpos
    have hbytes := congrArg byteLength hrest
    rw [byteLength_append] at hpos hbytes ⊢
    omega
  have hfirst : pos % UInt32.size = pos := h.mod_eq (by omega)
  have hpush := pushComment_eq trivia (pos + opening.length + byteLength (lineBody rest)) kind
    (pos + opening.length, pos + opening.length + byteLength (lineBody rest)) hslice hfirst
    (h.mod_eq hlast)
  rw [hpassed]
  unfold skipLineComment
  refine (bind_of_ok rfl).trans ((bind_of_ok hfind).trans ((bind_of_ok rfl).trans (hpush.trans ?_)))
  rw [← Nat.add_assoc, lineComment, List.drop_left]

theorem noteLineBreak_eq (s : State) (trivia : Trivia) (pos : Nat) :
    noteLineBreak (s.skipping trivia pos) =
      .ok () (s.skipping { trivia with hasLineBreak := true, atLineStart := true } pos) := by
  change EStateM.Result.ok () _ = _
  simp only [State.skipping, Bool.or_true]

/-- A block comment. -/
theorem skipBlockComment_eq (h : At (s.skipping trivia pos) before ('/' :: '*' :: rest)) :
    skipBlockComment (s.skipping trivia pos) = match blockBody? rest with
      | none => .error (.failure ⟨.unterminatedComment, pos⟩) (s.skipping trivia pos)
      | some body => .ok () (s.skipping { trivia with
          comments := trivia.comments ++
            [⟨.block, String.ofList body, pos, pos + 4 + byteLength body⟩]
          hasLineBreak := trivia.hasLineBreak || body.any isLineTerminator
          atLineStart := trivia.atLineStart || body.any isLineTerminator }
            (pos + byteLength (('/' :: '*' :: rest).take (body.length + 4)))) := by
  have hbody : At ((s.skipping trivia pos).bump 2) (before ++ ['/'] ++ ['*']) rest :=
    (h.bump_one (by decide)).bump_one (by decide)
  have hpos : pos + 2 = byteLength (before ++ ['/'] ++ ['*']) := hbody.pos
  have hle : pos + 2 ≤ (s.skipping trivia pos).bytes.length := by
    have hlength := hbody.length_bytes
    change (s.skipping trivia pos).bytes.length = _ at hlength
    omega
  have hfrom : (s.skipping trivia pos).bytesFrom (pos + 2) = utf8 rest := hbody.bytesFrom
  have hensure : ensure (decide (pos + 2 ≤ (s.skipping trivia pos).bytes.length))
      (s.skipping trivia pos) = .ok () (s.skipping trivia pos) := by
    rw [decide_eq_true hle]
    rfl
  unfold skipBlockComment
  refine (bind_of_ok rfl).trans ((bind_of_ok rfl).trans ((bind_of_ok hensure).trans
    ((bind_of_ok rfl).trans ?_)))
  rw [State.skipping_pos, hfrom, blockEnd?_utf8]
  cases hfound : blockBody? rest with
  | none =>
    change EStateM.Result.error (Stop.failure ⟨.unterminatedComment, pos % UInt32.size⟩) _ = _
    rw [show pos % UInt32.size = pos from h.pos_mod]
  | some body =>
    obtain ⟨⟨after, rfl⟩, -⟩ := blockBody?_some hfound
    have hbody' : At ((s.skipping trivia pos).bump 2) (before ++ ['/'] ++ ['*'])
        (body ++ (['*', '/'] ++ after)) := by
      rwa [← List.append_assoc]
    have hslice : Text.slice? s.source (pos + 2) (pos + 2 + byteLength body) = some body := by
      have hcut := hbody'.bump.slice?
      rw [← hbody'.pos] at hcut
      exact hcut
    have hbytes : ((s.skipping trivia pos).bytesFrom (pos + 2)).take
        (pos + 2 + byteLength body - (pos + 2)) = utf8 body := by
      rw [hfrom, Nat.add_sub_cancel_left, List.append_assoc, utf8_append, ← length_utf8,
        List.take_left]
    have hslash : '/'.utf8Size = 1 := rfl
    have hstar : '*'.utf8Size = 1 := rfl
    have hlast : pos + 2 + byteLength body + 2 ≤
        byteLength before + byteLength ('/' :: '*' :: (body ++ ['*', '/'] ++ after)) := by
      simp only [List.cons_append, List.nil_append, List.append_assoc, byteLength,
        byteLength_append,
        hslash, hstar] at hpos ⊢
      omega
    have hlength : byteLength (('/' :: '*' :: (body ++ ['*', '/'] ++ after)).take
      (body.length + 4)) =
        4 + byteLength body := by
      have htake : (body ++ ['*', '/'] ++ after).take (body.length + 2) = body ++ ['*', '/'] :=
        List.take_left' (by rw [List.length_append]; rfl)
      rw [List.take_succ_cons, List.take_succ_cons, htake]
      simp only [byteLength, byteLength_append, hslash, hstar]
      omega
    have hstop : pos + 2 + byteLength body + 2 = pos + 4 + byteLength body := by omega
    have hfirst : pos % UInt32.size = pos := h.mod_eq (by omega)
    have hpush := fun found => pushComment_eq found (pos + 2 + byteLength body + 2) .block
      (pos + 2, pos + 2 + byteLength body) hslice hfirst (h.mod_eq hlast)
    rw [Option.map_some]
    refine (bind_of_ok (hasLineBreak_eq hbytes hslice)).trans ?_
    dsimp only
    rw [hlength]
    rw [← Nat.add_assoc, ← hstop]
    split
    · rename_i hbreak
      refine (bind_of_ok (noteLineBreak_eq s trivia pos)).trans ((bind_of_ok rfl).trans ?_)
      refine (hpush _).trans ?_
      rw [hbreak, Bool.or_true, Bool.or_true]
    · rename_i hbreak
      refine (bind_of_ok rfl).trans ((hpush trivia).trans ?_)
      rw [Bool.not_eq_true] at hbreak
      rw [hbreak, Bool.or_false, Bool.or_false]

theorem isPrefixOf_utf8 {a : List Char} (ha : ∀ x ∈ a, isAscii x = true) (rest : List Char) :
    (utf8 a).isPrefixOf (utf8 rest) = a.isPrefixOf rest := by
  induction a generalizing rest with
  | nil => rfl
  | cons x a ih =>
    rw [List.forall_mem_cons] at ha
    rw [utf8_cons_of_isAscii ha.1]
    have hhead := head?_utf8 ha.1 rest
    cases rest with
    | nil => rfl
    | cons c rest =>
      obtain ⟨b, more, hdrop, -⟩ := exists_drop rest c.utf8Size_pos
      rw [List.drop_zero] at hdrop
      rw [hdrop, List.head?_cons, List.head?_cons, Option.some_beq_some, Option.some_beq_some]
        at hhead
      rw [hdrop, List.isPrefixOf_cons_cons, List.isPrefixOf_cons_cons, Bool.beq_comm, hhead,
        Bool.beq_comm (a := x)]
      cases hc : c == x with
      | false => rfl
      | true =>
        obtain rfl : c = x := beq_iff_eq.mp hc
        rw [utf8_cons_of_isAscii ha.1] at hdrop
        rw [← (List.cons.inj hdrop).2, ih ha.2]

theorem At.startsWith (h : At s before rest) {text : String}
    (htext : text.toList.all isAscii = true) :
    s.startsWith text = text.toList.isPrefixOf rest := by
  rw [State.startsWith, h.bytesFrom, isPrefixOf_utf8 (List.all_eq_true.mp htext)]

end Comments

end EcmaSyntax.Scanner
