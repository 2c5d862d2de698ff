import EcmaSyntax.Lexer.State
import EcmaSyntax.Proofs.Outcome
import EcmaSyntax.Proofs.Scanner.Bytes

/-!
Where a scanner stands between two characters, what it reads is told by the text from there on.
On the way through a character it is inside of it, and comes out of it again after as many rounds
as the character has bytes.

A reader of characters tells what a step of the scanner does: the step follows the reader if it
has a result where the reader has one, and fails where the reader fails, at the same place.
-/

namespace EcmaSyntax.Scanner

open EcmaSyntax.Diagnostic EcmaSyntax.Lexer EcmaSyntax.Text EcmaSyntax.Unicode

variable {α β γ σ φ ψ : Type} {s s' : State} {before piece rest : List Char}

/-- The scanner stands between `before` and `rest`, in a text whose offsets fit into 32 bits. -/
structure At (s : State) (before rest : List Char) : Prop where
  source : s.source = before ++ rest
  pos : s.pos = byteLength before
  short : byteLength (before ++ rest) < UInt32.size

/-- The state after some of the characters that come next. -/
def State.past (s : State) (rest : List Char) (count : Nat) : State :=
  s.bump (byteLength (rest.take count))

theorem State.past_past (s : State) (rest : List Char) (m n : Nat) :
    (s.past rest m).past (rest.drop m) n = s.past rest (m + n) := by
  simp only [State.past, State.bump, List.take_add, byteLength_append, Nat.add_assoc]

theorem State.past_of_isAscii (s : State) {rest : List Char} {count : Nat}
    (h : ∀ c ∈ rest.take count, isAscii c = true) (hcount : count ≤ rest.length) :
    s.past rest count = s.bump count := by
  rw [State.past, byteLength_of_isAscii h, List.length_take, Nat.min_eq_left hcount]

namespace At

theorem of_eq (h : At s before rest) (hsource : s'.source = s.source) (hpos : s'.pos = s.pos) :
    At s' before rest :=
  ⟨hsource.trans h.source, hpos.trans h.pos, h.short⟩

/-- Going on over characters. -/
theorem passed (h : At s before (piece ++ rest)) (hsource : s'.source = s.source)
    (hpos : s'.pos = s.pos + byteLength piece) : At s' (before ++ piece) rest := by
  refine ⟨?_, ?_, ?_⟩
  · rw [hsource, h.source, List.append_assoc]
  · rw [hpos, h.pos, byteLength_append]
  · rw [List.append_assoc]
    exact h.short

theorem bump (h : At s before (piece ++ rest)) :
    At (s.bump (byteLength piece)) (before ++ piece) rest := h.passed rfl rfl

theorem bump_char {c : Char} (h : At s before (c :: rest)) :
    At (s.bump c.utf8Size) (before ++ [c]) rest := by
  have hbump : At (s.bump (byteLength [c])) (before ++ [c]) rest := bump h
  exact hbump

theorem past (h : At s before rest) (count : Nat) :
    At (s.past rest count) (before ++ rest.take count) (rest.drop count) :=
  bump (by rwa [List.take_append_drop])

theorem bytesFrom (h : At s before rest) : s.bytesFrom s.pos = utf8 rest := by
  unfold State.bytesFrom State.bytes
  rw [h.source, h.pos, utf8_append, ← length_utf8, List.drop_left]

theorem byte? (h : At s before rest) (count : Nat) :
    s.byte? (s.pos + count) = byteOf? rest count := by
  have hbytes := h.bytesFrom
  unfold State.bytesFrom at hbytes
  rw [State.byte?, byteOf?, ← hbytes, List.getElem?_drop]

theorem byteAt (h : At s before rest) (count : Nat) : s.byteAt count = ahead rest count := by
  rw [State.byteAt, h.byte?, ahead]

theorem length_bytes (h : At s before rest) :
    s.bytes.length = byteLength before + byteLength rest := by
  rw [State.bytes, h.source, length_utf8, byteLength_append]

theorem isEof (h : At s before rest) : s.isEof = rest.isEmpty := by
  rw [State.isEof, h.length_bytes, h.pos]
  cases rest with
  | nil => simp [byteLength]
  | cons c rest =>
    have hpos : 0 < c.utf8Size := c.utf8Size_pos
    rw [List.isEmpty_cons, decide_eq_false_iff_not, byteLength]
    omega

theorem isEof_eq (h : At s before rest) : Scanner.isEof s = .ok rest.isEmpty s :=
  congrArg (EStateM.Result.ok · s) h.isEof

theorem byteAt_eq (h : At s before rest) (count : Nat) :
    Scanner.byteAt count s = .ok (ahead rest count) s :=
  congrArg (EStateM.Result.ok · s) (h.byteAt count)

theorem slice? (h : At s (before ++ piece) rest) :
    Text.slice? s.source (byteLength before) s.pos = some piece := by
  rw [h.source, h.pos, byteLength_append, List.append_assoc]
  exact slice?_append before piece rest

theorem currentChar (h : At s before rest) : Scanner.currentChar s = .ok rest.head? s := by
  have hslice : Text.slice? s.source s.pos s.bytes.length = some rest := by
    have hcut := slice?_append before rest []
    rw [List.append_nil] at hcut
    rw [h.source, h.pos, h.length_bytes]
    exact hcut
  unfold Scanner.currentChar Scanner.slice
  refine (bind_of_ok rfl).trans ((bind_of_ok ?_).trans rfl)
  exact (bind_of_ok rfl).trans (by rw [hslice]; rfl)

/-- The state after a number of characters of the token that starts behind `lead`. -/
theorem goTo {lead token : List Char} (h : At s before rest)
    (htoken : lead ++ token = before ++ rest)
    (count : Nat) (hsource : s'.source = s.source)
    (hpos : s'.pos = byteLength (lead ++ token.take count)) :
    At s' (lead ++ token.take count) (token.drop count) := by
  refine ⟨?_, hpos, ?_⟩
  · rw [hsource, h.source, List.append_assoc, List.take_append_drop, htoken]
  · rw [List.append_assoc, List.take_append_drop, htoken]
    exact h.short

/-- An offset of the text is as it is after being kept in 32 bits. -/
theorem mod_eq (h : At s before rest) {offset : Nat}
    (hle : offset ≤ byteLength before + byteLength rest) : offset % UInt32.size = offset := by
  have hshort := h.short
  rw [byteLength_append] at hshort
  exact Nat.mod_eq_of_lt (Nat.lt_of_le_of_lt hle hshort)

theorem pos_mod (h : At s before rest) : s.pos % UInt32.size = s.pos :=
  h.mod_eq (h.pos ▸ Nat.le_add_right _ _)

end At

/-- A step that fails ends what comes after it. -/
theorem bind_of_error {ε τ : Type} {first : EStateM ε τ σ} {more : σ → EStateM ε τ α} {a a' : τ}
    {stop : ε} (h : first a = .error stop a') : (first >>= more) a = .error stop a' := by
  change EStateM.bind first more a = _
  simp only [EStateM.bind, h]

/-- What comes after a step sees only its outcome. -/
theorem bind_of_eq {first other : Scanner σ} {more : σ → Scanner α} (h : first s = other s') :
    (first >>= more) s = (other >>= more) s' := by
  change EStateM.bind first more s = EStateM.bind other more s'
  simp only [EStateM.bind, h]

theorem byte_eq {b : Char} (h : s.byte? s.pos = some b) : byte s = .ok b s := by
  unfold byte
  refine (bind_of_ok rfl).trans ((bind_of_ok rfl).trans ?_)
  rw [h]
  rfl

theorem slice_eq {start stop : Nat} {text : List Char}
    (h : Text.slice? s.source start stop = some text) : slice start stop s = .ok text s := by
  unfold slice
  refine (bind_of_ok rfl).trans ?_
  rw [h]
  rfl

/-- The first byte of a character of ASCII is the character. -/
theorem At.byte_ascii {c : Char} (h : At s before (c :: rest)) (hc : isAscii c = true) :
    byte s = .ok c s :=
  byte_eq ((h.byte? 0).trans (byteOf?_cons_zero hc))

theorem At.byte_wide {c : Char} (h : At s before (c :: rest)) (hc : isAscii c = false) :
    ∃ b, byte s = .ok b s ∧ isAscii b = false := by
  obtain ⟨b, hb, hwide⟩ := byteOf?_wide rest hc c.utf8Size_pos
  exact ⟨b, byte_eq ((h.byte? 0).trans hb), hwide⟩

/-- Going on over a character of ASCII. -/
theorem At.bump_one {c : Char} (h : At s before (c :: rest)) (hc : isAscii c = true) :
    At (s.bump 1) (before ++ [c]) rest := by
  have hbump := h.bump_char
  rwa [utf8Size_of_isAscii hc] at hbump

theorem At.byteAt_succ {c : Char} (h : At s before (c :: rest)) (hc : isAscii c = true)
    (count : Nat) :
    s.byteAt (count + 1) = ahead rest count := by
  rw [h.byteAt, ahead_cons_succ hc]

theorem At.byteAt_zero_iff (h : At s before rest) {x : Char} (hx : isAscii x = true)
    (hzero : x ≠ '\x00') : s.byteAt 0 = x ↔ ∃ tail, rest = x :: tail := by
  rw [h.byteAt, ← beq_iff_eq, ahead_beq hx hzero, beq_iff_eq, List.head?_eq_some_iff]

/-- Two characters of ASCII come next. -/
theorem At.byteAt_one_iff (h : At s before rest) {x y : Char} (hx : isAscii x = true)
    (hy : isAscii y = true) (hxzero : x ≠ '\x00') (hyzero : y ≠ '\x00') :
    s.byteAt 0 = x ∧ s.byteAt 1 = y ↔ ∃ tail, rest = x :: y :: tail := by
  constructor
  · rintro ⟨hfirst, hsecond⟩
    obtain ⟨tail, rfl⟩ := (h.byteAt_zero_iff hx hxzero).mp hfirst
    obtain ⟨tail, rfl⟩ := ((h.bump_one hx).byteAt_zero_iff hy hyzero).mp hsecond
    exact ⟨tail, rfl⟩
  · rintro ⟨tail, rfl⟩
    exact ⟨(h.byteAt_zero_iff hx hxzero).mpr ⟨_, rfl⟩,
      ((h.bump_one hx).byteAt_zero_iff hy hyzero).mpr ⟨_, rfl⟩⟩

section Loops

/-- Inside of a character: there is a byte, and it is no byte of ASCII but the character itself. -/
theorem At.within {c : Char} (h : At s before (c :: rest)) {count : Nat}
    (hcount : count < c.utf8Size) :
    Scanner.isEof (s.bump count) = .ok false (s.bump count) ∧
      ∃ b, byte (s.bump count) = .ok b (s.bump count) ∧
        ∀ x, isAscii x = true → (c == x) = false → (b == x) = false := by
  obtain ⟨b, hb, hbc⟩ := byteOf?_within rest hcount
  refine ⟨congrArg (EStateM.Result.ok · _) ?_, b, byte_eq ((h.byte? count).trans hb),
    fun x hx hcx => ?_⟩
  · change decide (s.bytes.length ≤ s.pos + count) = false
    rw [h.length_bytes, h.pos, decide_eq_false_iff_not, byteLength]
    omega
  · rw [beq_eq_false_iff_ne] at hcx ⊢
    exact fun hbx => hcx (hbc x hx hbx)

variable {round : Round σ α} {a a' : σ} {result : α} {fuel : Nat}

theorem rounds_inl (h : round a s = .ok (.inl a') s') :
    rounds round (fuel + 1) a s = rounds round fuel a' s' := bind_of_ok h

theorem rounds_inr (h : round a s = .ok (.inr result) s') :
    rounds round (fuel + 1) a s = .ok result s' := bind_of_ok h

/-- The rounds that go through a character byte by byte. -/
theorem rounds_bump (fuel : Nat) {count : Nat}
    (h : ∀ k < count, round a (s.bump k) = .ok (.inl a) (s.bump (k + 1))) :
    rounds round (fuel + count) a s = rounds round fuel a (s.bump count) := by
  induction count generalizing fuel with
  | zero => rfl
  | succ count ih =>
    have hrest := ih (fuel + 1) fun k hk => h k (Nat.lt_succ_of_lt hk)
    rw [Nat.add_right_comm] at hrest
    rw [← Nat.add_assoc, hrest]
    exact rounds_inl (h count (Nat.lt_succ_self count))

theorem rounds_error {stop : Stop} (h : round a s = .error stop s') :
    rounds round (fuel + 1) a s = .error stop s' := bind_of_error h

theorem loop_eq (s : State) (a : σ) :
    loop round a s = rounds round (s.bytes.length + 1) a s := rfl

end Loops

section Readings

/-- The step has a result where the reading has one, with `Q` for the two, and where the reading
fails the step fails with `E`. -/
def Follows (E : φ → Stop → State → Prop) (reading : Except φ β) (step : Scanner α)
    (Q : β → α → State → Prop) (s : State) : Prop :=
  match reading, step s with
  | .ok b, .ok a s' => Q b a s'
  | .error found, .error stop s' => E found stop s'
  | _, _ => False

namespace Follows

variable {E : φ → Stop → State → Prop} {reading : Except φ β} {step : Scanner α}
  {Q R : β → α → State → Prop}

theorem of_ok {a : α} {b : β} (hreading : reading = .ok b) (hstep : step s = .ok a s')
    (hQ : Q b a s') : Follows E reading step Q s := by
  unfold Follows
  rw [hreading, hstep]
  exact hQ

theorem of_error {found : φ} {stop : Stop} (hreading : reading = .error found)
    (hstep : step s = .error stop s') (hE : E found stop s') : Follows E reading step Q s := by
  unfold Follows
  rw [hreading, hstep]
  exact hE

theorem ok {b : β} (h : Follows E (.ok b) step Q s) : ∃ a s', step s = .ok a s' ∧ Q b a s' := by
  unfold Follows at h
  cases hstep : step s with
  | ok a s' =>
    rw [hstep] at h
    exact ⟨a, s', rfl, h⟩
  | error stop s' =>
    rw [hstep] at h
    exact h.elim

theorem error {found : φ} (h : Follows E (.error found) step Q s) :
    ∃ stop s', step s = .error stop s' ∧ E found stop s' := by
  unfold Follows at h
  cases hstep : step s with
  | ok a s' =>
    rw [hstep] at h
    exact h.elim
  | error stop s' =>
    rw [hstep] at h
    exact ⟨stop, s', rfl, h⟩

/-- A step that has a result tells that the reading has one. -/
theorem of_run {a : α} (h : Follows E reading step Q s) (hrun : step s = .ok a s') :
    ∃ b, reading = .ok b ∧ Q b a s' := by
  unfold Follows at h
  rw [hrun] at h
  cases reading with
  | ok b => exact ⟨b, rfl, h⟩
  | error found => exact h.elim

theorem of_stop {stop : Stop} (h : Follows E reading step Q s) (hrun : step s = .error stop s') :
    ∃ found, reading = .error found ∧ E found stop s' := by
  unfold Follows at h
  rw [hrun] at h
  cases reading with
  | ok b => exact h.elim
  | error found => exact ⟨found, rfl, h⟩

theorem weaken {E' : φ → Stop → State → Prop} (h : Follows E reading step Q s)
    (hE : ∀ found stop s', E found stop s' → E' found stop s') : Follows E' reading step Q s := by
  cases hreading : reading with
  | ok b =>
    rw [hreading] at h
    obtain ⟨a, s', hstep, hresult⟩ := h.ok
    exact of_ok rfl hstep hresult
  | error found =>
    rw [hreading] at h
    obtain ⟨stop, s', hstep, hfound⟩ := h.error
    exact of_error rfl hstep (hE found stop s' hfound)

theorem mono (h : Follows E reading step Q s) (hQ : ∀ b a s', Q b a s' → R b a s') :
    Follows E reading step R s := by
  cases hreading : reading with
  | ok b =>
    rw [hreading] at h
    obtain ⟨a, s', hstep, hresult⟩ := h.ok
    exact of_ok rfl hstep (hQ b a s' hresult)
  | error found =>
    rw [hreading] at h
    obtain ⟨stop, s', hstep, hfound⟩ := h.error
    exact of_error rfl hstep hfound

/-- The first step fails. -/
theorem fails {first : Scanner σ} {more : σ → Scanner α} {found : φ} {stop : Stop}
    (hreading : reading = .error found) (h : first s = .error stop s') (hE : E found stop s') :
    Follows E reading (first >>= more) Q s := of_error hreading (bind_of_error h) hE

theorem fail {found : φ} {cause : Cause} {offset : Nat} (hreading : reading = .error found)
    (hoffset : offset % UInt32.size = offset) (hE : E found (.failure ⟨cause, offset⟩) s) :
    Follows E reading (Scanner.fail cause offset) Q s := by
  refine of_error hreading ?_ hE
  change EStateM.Result.error (Stop.failure ⟨cause, offset % UInt32.size⟩) s = _
  rw [hoffset]

theorem bind {next : β → Except φ γ} {more : α → Scanner σ} {P : γ → σ → State → Prop}
    (h : Follows E reading step Q s)
    (hmore : ∀ b a s', Q b a s' → Follows E (next b) (more a) P s') :
    Follows E (reading >>= next) (step >>= more) P s := by
  cases hreading : reading with
  | ok b =>
    rw [hreading] at h
    obtain ⟨a, s', hstep, hresult⟩ := h.ok
    have hnext := hmore b a s' hresult
    unfold Follows at hnext ⊢
    rw [bind_of_ok hstep]
    exact hnext
  | error found =>
    rw [hreading] at h
    obtain ⟨stop, s', hstep, hfound⟩ := h.error
    exact fails rfl hstep hfound

/-- The value of the reading is known with the result of the step. -/
theorem noted (h : Follows E reading step Q s) :
    Follows E reading step (fun b a s' => reading = .ok b ∧ Q b a s') s := by
  cases hreading : reading with
  | ok b =>
    rw [hreading] at h
    obtain ⟨a, s', hstep, hresult⟩ := h.ok
    exact of_ok rfl hstep ⟨rfl, hresult⟩
  | error found =>
    rw [hreading] at h
    obtain ⟨stop, s', hstep, hfound⟩ := h.error
    exact of_error rfl hstep hfound

/-- The reading alone goes on with its value. -/
theorem map {g : β → γ} {P : γ → α → State → Prop} (h : Follows E reading step Q s)
    (hP : ∀ b a s', Q b a s' → P (g b) a s') :
    Follows E (reading >>= fun b => .ok (g b)) step P s := by
  cases hreading : reading with
  | ok b =>
    rw [hreading] at h
    obtain ⟨a, s', hstep, hresult⟩ := h.ok
    exact of_ok rfl hstep (hP b a s' hresult)
  | error found =>
    rw [hreading] at h
    obtain ⟨stop, s', hstep, hfound⟩ := h.error
    exact of_error rfl hstep hfound

/-- A step whose outcome is known. -/
theorem run {first : Scanner σ} {more : σ → Scanner α} {a : σ} (h : first s = .ok a s')
    (hmore : Follows E reading (more a) Q s') : Follows E reading (first >>= more) Q s := by
  unfold Follows at hmore ⊢
  rwa [bind_of_ok h]

theorem pure {a : α} {b : β} (h : Q b a s) : Follows E (.ok b) (Pure.pure a) Q s := h

/-- The same step, written as another one. -/
theorem of_step {other : Scanner α} (h : Follows E reading other Q s') (hstep : step s = other s') :
    Follows E reading step Q s := by
  unfold Follows at h ⊢
  rwa [hstep]

/-- The step alone goes on with its result. -/
theorem finish {more : α → Scanner σ} {P : β → σ → State → Prop} (h : Follows E reading step Q s)
    (hmore : ∀ b a s', Q b a s' → ∃ c s'', more a s' = .ok c s'' ∧ P b c s'') :
    Follows E reading (step >>= more) P s := by
  cases hreading : reading with
  | ok b =>
    rw [hreading] at h
    obtain ⟨a, s', hstep, hresult⟩ := h.ok
    obtain ⟨c, s'', hrest, hP⟩ := hmore b a s' hresult
    exact of_ok rfl ((bind_of_ok hstep).trans hrest) hP
  | error found =>
    rw [hreading] at h
    obtain ⟨stop, s', hstep, hfound⟩ := h.error
    exact fails rfl hstep hfound

end Follows

/-- A token that starts after `lead` and is read from `token` on fails with a fault, whose place
is told by the characters before it. What has been noted so far stays as in `s`. -/
structure FailsAs (s : State) (lead token : List Char) (found : Fault) (stop : Stop) (s' : State) :
    Prop where
  stop : stop = .failure ⟨found.cause, byteLength (lead ++ token.take found.index)⟩
  invalidEscape : s'.invalidEscape = match found.invalidEscape with
    | some index => byteLength (lead ++ token.take index)
    | none => s.invalidEscape
  comments : s'.comments = s.comments

/-- A step that started at `s` has failed at an offset, and what has been noted stays. -/
structure FailsAt (s : State) (offset : Nat) (cause : Cause) (stop : Stop) (s' : State) : Prop where
  stop : stop = .failure ⟨cause, offset⟩
  invalidEscape : s'.invalidEscape = s.invalidEscape
  comments : s'.comments = s.comments

theorem FailsAt.failsAs {cause : Cause} {offset : Nat} {stop : Stop} {lead token : List Char}
    {index : Nat} (h : FailsAt s offset cause stop s')
    (hoffset : offset = byteLength (lead ++ token.take index)) :
    FailsAs s lead token ⟨cause, index, none⟩ stop s' :=
  ⟨by rw [h.stop, hoffset], h.invalidEscape, h.comments⟩

/-- The place of a fault does not depend on how far the token has been read. -/
theorem FailsAs.of_eq {s₀ : State} {lead token : List Char} {found : Fault} {stop : Stop}
    (h : FailsAs s lead token found stop s') (hinvalid : s.invalidEscape = s₀.invalidEscape)
    (hcomments : s.comments = s₀.comments) : FailsAs s₀ lead token found stop s' :=
  ⟨h.stop, hinvalid ▸ h.invalidEscape, h.comments.trans hcomments⟩

theorem Follows.rebase {reading : Except Fault β} {step : Scanner α} {Q : β → α → State → Prop}
    {lead token : List Char} {s₁ : State} (s₀ : State)
    (h : Follows (FailsAs s lead token) reading step Q s₁)
    (hinvalid : s.invalidEscape = s₀.invalidEscape)
    (hcomments : s.comments = s₀.comments) : Follows (FailsAs s₀ lead token) reading step Q s₁ :=
  h.weaken fun _ _ _ hfails => hfails.of_eq hinvalid hcomments

end Readings

section Passing

variable {lead token : List Char} {c : Char} {index : Nat}

theorem drop_succ_of_eq (h : token.drop index = c :: rest) : token.drop (index + 1) = rest := by
  rw [← List.tail_drop, h, List.tail_cons]

/-- One more character has been passed. -/
theorem State.past_bump (h : token.drop index = c :: rest) :
    (s.past token index).bump c.utf8Size = s.past token (index + 1) := by
  rw [← State.past_past, h]
  rfl

theorem State.past_bump_one (h : token.drop index = c :: rest) (hc : isAscii c = true) :
    (s.past token index).bump 1 = s.past token (index + 1) := by
  rw [← State.past_bump h, utf8Size_of_isAscii hc]

theorem At.past_pos (h : At s lead token) (index : Nat) :
    (s.past token index).pos = byteLength (lead ++ token.take index) := (h.past index).pos

/-- The text is refused where the scanner stands. -/
theorem At.fails_past (h : At s lead token) {cause : Cause} {reading : Except Fault β}
    {Q : β → α → State → Prop} (hreading : reading = .error ⟨cause, index, none⟩) :
    Follows (FailsAs s lead token) reading (fail cause (s.past token index).pos) Q
      (s.past token index) := by
  refine .fail hreading (h.past index).pos_mod ⟨?_, rfl, rfl⟩
  rw [h.past_pos]

end Passing

end EcmaSyntax.Scanner
