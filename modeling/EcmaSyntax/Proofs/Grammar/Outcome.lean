import EcmaSyntax.Grammar.Phrases
import EcmaSyntax.Proofs.Lexer.Words
import EcmaSyntax.Proofs.Outcome
import EcmaSyntax.Grammar.Operation

/-!
What the steps of a parse can end in. Loops need only a condition that each round keeps, and the
steps that look at a token or take one change nothing but the place in the text. The checks around
an operator fail or leave the state as it is, apart from the cover state, and what they let pass is
known from then on.
-/

namespace EcmaSyntax.Meets

open EcmaSyntax.Diagnostic EcmaSyntax.Grammar

variable {α : Type}

/-- A loop ends as its last round does, if every other round leaves less to do. -/
theorem collectAfter {E : Failure → Prop} {round : List α → Parser (Round α)}
    {I : Nat → List α → State → Prop} {Q : List α → State → Prop}
    (hround : ∀ n earlier s, I n earlier s → Meets E (round earlier) (fun r s' =>
      match r with
      | .stop => Q earlier.reverse s'
      | .last item => Q (item :: earlier).reverse s'
      | .more item => ∃ n', n' < n ∧ I n' (item :: earlier) s') s) :
    ∀ (fuel n : Nat) (earlier : List α) (s : State), n < fuel → I n earlier s →
      Meets E (Grammar.collectAfter round fuel earlier) Q s := by
  intro fuel
  induction fuel with
  | zero => exact fun n _ _ hn _ => absurd hn (Nat.not_lt_zero n)
  | succ fuel ih =>
    intro n earlier s hn h
    unfold Grammar.collectAfter
    refine (hround n earlier s h).bind fun r s' hr => ?_
    cases r with
    | stop => exact .pure hr
    | last item => exact .pure hr
    | more item =>
      obtain ⟨n', hlt, hI⟩ := hr
      exact ih n' (item :: earlier) s' (by omega) hI

/-- A round that applies something to a value, and the rounds after it. -/
theorem iterate_more {E : Failure → Prop} {σ : Type} {round : σ → Parser (Option σ)}
    {P Q : σ → State → Prop} {fuel : Nat} {x : σ} {s : State}
    (h : Meets E (round x) (fun r s' => ∃ y, r = some y ∧ P y s') s)
    (hrest : ∀ y s', P y s' → Meets E (Grammar.iterate round fuel y) Q s') :
    Meets E (Grammar.iterate round (fuel + 1) x) Q s := by
  unfold Grammar.iterate
  refine h.bind fun r s' hr => ?_
  obtain ⟨y, rfl, hy⟩ := hr
  exact hrest y s' hy

/-- The round that finds nothing to apply. -/
theorem iterate_stop {E : Failure → Prop} {σ : Type} {round : σ → Parser (Option σ)}
    {Q : σ → State → Prop} {fuel : Nat} {x : σ} {s : State} (h : round x s = .ok none s)
    (hQ : Q x s) : Meets E (Grammar.iterate round (fuel + 1) x) Q s := by
  unfold Grammar.iterate
  exact .run h (.pure hQ)

/-- A step of the lexer changes nothing but the lexer. -/
theorem withLexer {E : Failure → Prop} {step : Lexer α} {Q : α → Lexer.State → Prop} {s : State}
    (h : Meets E step Q s.lexer) :
    Meets E (Grammar.withLexer step)
      (fun a s' => ∃ lexer, Q a lexer ∧ s' = { s with lexer := lexer }) s := by
  unfold Meets at h ⊢
  unfold Grammar.withLexer
  cases hstep : step s.lexer with
  | ok a lexer =>
    rw [hstep] at h
    exact ⟨lexer, h, rfl⟩
  | error failure lexer =>
    rw [hstep] at h
    exact h

end EcmaSyntax.Meets

namespace EcmaSyntax.Grammar

open EcmaSyntax.Diagnostic EcmaSyntax.Tree

variable {version : Nat} [Unicode.IdentifierChars version]

variable {α β : Type}

/-- A step without result. -/
def Stops (step : Parser α) : Prop := ∀ s, Yields step (fun _ _ => False) s

theorem stops_failAt (cause : Cause) (offset : Nat) : Stops (failAt cause offset : Parser α) :=
  fun _ => trivial

theorem stops_fail (cause : Cause) : Stops (fail cause : Parser α) := fun _ => trivial

theorem stops_unexpected : Stops (unexpected : Parser α) := fun _ => trivial

namespace Stops

variable {s : State}

theorem yields {step : Parser α} (h : Stops step) {Q : α → State → Prop} : Yields step Q s :=
  (h s).mono fun _ _ hfalse => hfalse.elim

theorem bind {step : Parser α} (h : Stops step) {rest : α → Parser β}
    {P : β → State → Prop} : Yields (step >>= rest) P s :=
  Meets.bind (h s) fun _ _ hfalse => hfalse.elim

/-- A check that either fails or changes nothing. -/
theorem guard {step : Parser α} (h : Stops step) {c : Prop} [Decidable c]
    {rest : α → Parser β} {last : Parser β} {P : β → State → Prop} (hlast : Yields last P s) :
    Yields (if c then step >>= rest else last) P s := by
  split
  · exact h.bind
  · exact hlast

end Stops

theorem withLexer_frame (step : Lexer α) (s : State) :
    Yields (withLexer step) (fun _ s' => ∃ lexer, s' = { s with lexer := lexer }) s := by
  have hstep : Yields step (fun _ _ => True) s.lexer := .of_results fun _ _ => trivial
  refine hstep.withLexer.mono fun _ s' hs' => ?_
  obtain ⟨lexer, -, hlexer⟩ := hs'
  exact ⟨lexer, hlexer⟩

theorem recordToken_frame (s : State) :
    ∃ observations, s.recordToken = { s with observations := observations } := by
  unfold State.recordToken
  split
  · exact ⟨_, rfl⟩
  · exact ⟨s.observations, rfl⟩

theorem recordComments_frame (s : State) (comments : List Lexer.Comment) :
    ∃ observations, s.recordComments comments = { s with observations := observations } := by
  unfold State.recordComments
  split
  · exact ⟨_, rfl⟩
  · exact ⟨s.observations, rfl⟩

/-- Taking a token changes the lexer, the record and the end of the last token,
and nothing else. -/
theorem advance_frame (step : Lexer Token) (s : State) :
    Yields (advance step) (fun _ s' => ∃ lexer observations stop, s' = { s with
      lexer := lexer
      observations := observations
      previousEnd := stop }) s := by
  obtain ⟨observations, hobservations⟩ := recordToken_frame s
  unfold advance
  refine .run rfl ?_
  dsimp only
  rw [hobservations]
  refine (withLexer_frame _ _).bind fun _ s₁ hs₁ => .run rfl ?_
  obtain ⟨lexer, rfl⟩ := hs₁
  split
  · refine (withLexer_frame _ _).bind fun comments s₂ hs₂ => .ok rfl ?_
    obtain ⟨lexer', rfl⟩ := hs₂
    obtain ⟨observations', hcomments⟩ := recordComments_frame _ comments
    exact ⟨_, _, _, hcomments⟩
  · exact .pure ⟨_, _, _, rfl⟩

theorem next_frame (s : State) :
    Yields next (fun _ s' => ∃ lexer observations stop, s' = { s with
      lexer := lexer
      observations := observations
      previousEnd := stop }) s :=
  advance_frame _ s

theorem enterNesting_frame (s : State) :
    Yields enterNesting (fun _ s' => s' = { s with depth := s.depth + 1 }) s := by
  unfold enterNesting
  refine .run rfl (.run rfl ?_)
  split
  · exact (stops_fail _).yields
  · exact .pure rfl

/-- Counting levels does not change what a phrase finds and leaves. -/
theorem nested_yields {phrase : Parser α} {P : State → Prop} {Q : α → State → Prop}
    (hP : ∀ s depth, P s → P { s with depth := depth })
    (hQ : ∀ a s depth, Q a s → Q a { s with depth := depth })
    (h : ∀ s, P s → Yields phrase Q s) {s : State} (hs : P s) : Yields (nested phrase) Q s := by
  unfold nested
  refine (enterNesting_frame s).bind fun _ s' hs' => ?_
  subst hs'
  refine (h _ (hP s _ hs)).bind fun a s ha => ?_
  exact .run rfl (.pure (hQ a s (s.depth - 1) ha))

/-- A loop ends as its last round does, with what every other round keeps about the items so
far. -/
theorem Yields.collectAfter_until {round : List α → Parser (Round α)}
    {I Q : List α → State → Prop}
    (hround : ∀ earlier s, I earlier s → Yields (round earlier) (fun r s' =>
      match r with
      | .stop => Q earlier s'
      | .last item => Q (item :: earlier) s'
      | .more item => I (item :: earlier) s') s) :
    ∀ (fuel : Nat) (earlier : List α) (s : State), I earlier s →
      Yields (Grammar.collectAfter round fuel earlier) (fun items s' => Q items.reverse s') s := by
  intro fuel
  induction fuel with
  | zero => exact fun _ _ _ => (stops_fail _).yields
  | succ fuel ih =>
    intro earlier s h
    unfold Grammar.collectAfter
    refine (hround earlier s h).bind fun r s' hr => ?_
    cases r with
    | stop => exact .pure (by simpa using hr)
    | last item => exact .pure (by simpa using hr)
    | more item => exact ih (item :: earlier) s' hr

/-- What every round of a loop keeps about the items so far holds at its end. -/
theorem Yields.collectAfter {round : List α → Parser (Round α)} {I : List α → State → Prop}
    (hround : ∀ earlier s, I earlier s → Yields (round earlier) (fun r s' =>
      match r with
      | .stop => I earlier s'
      | .last item => I (item :: earlier) s'
      | .more item => I (item :: earlier) s') s) :
    ∀ (fuel : Nat) (earlier : List α) (s : State), I earlier s →
      Yields (Grammar.collectAfter round fuel earlier) (fun items s' => I items.reverse s') s :=
  Yields.collectAfter_until hround

/-- A loop over a value ends as its last round does, with what every other round keeps. -/
theorem Yields.iterate_until {σ : Type} {round : σ → Parser (Option σ)} {I Q : σ → State → Prop}
    (hround : ∀ x s, I x s → Yields (round x) (fun r s' =>
      match r with
      | some y => I y s'
      | none => Q x s') s) :
    ∀ (fuel : Nat) (x : σ) (s : State), I x s → Yields (Grammar.iterate round fuel x) Q s := by
  intro fuel
  induction fuel with
  | zero => exact fun _ _ _ => (stops_fail _).yields
  | succ fuel ih =>
    intro x s h
    unfold Grammar.iterate
    refine (hround x s h).bind fun r s' hr => ?_
    cases r with
    | none => exact .pure hr
    | some y => exact ih y s' hr

theorem Yields.iterate {σ : Type} {round : σ → Parser (Option σ)} {I : σ → State → Prop}
    (hround : ∀ x s, I x s → Yields (round x) (fun r s' => I (r.getD x) s') s)
    (fuel : Nat) (x : σ) (s : State) (h : I x s) : Yields (Grammar.iterate round fuel x) I s := by
  refine Yields.iterate_until (fun x s h => (hround x s h).mono fun r s' hr => ?_) fuel x s h
  cases r with
  | none => exact hr
  | some y => exact hr

/-- The item that a round found, if there is one, has a property. -/
def Round.Adds (P : α → Prop) : Round α → Prop
  | .stop => True
  | .last item => P item
  | .more item => P item

namespace Phrases

variable {g : Phrases}

/-- The items of a loop when each new one has a property. -/
theorem collect_yields {round : List α → Parser (Round α)} {P : α → Prop}
    (hround : ∀ earlier s, (∀ x ∈ earlier, P x) →
      Yields (round earlier) (fun r _ => r.Adds P) s) (s : State) :
    Yields (g.collect round) (fun items _ => ∀ x ∈ items, P x) s := by
  refine (Yields.collectAfter (I := fun items _ => ∀ x ∈ items, P x)
    (fun earlier s h => ?_) g.size [] s (by simp)).mono fun items s' h x hx => ?_
  · refine (hround earlier s h).mono fun r s' hr => ?_
    cases r with
    | stop => exact h
    | last item => exact List.forall_mem_cons.mpr ⟨hr, h⟩
    | more item => exact List.forall_mem_cons.mpr ⟨hr, h⟩
  · exact h x (List.mem_reverse.mpr hx)

theorem listed_yields {item : List α → Parser α} {P : α → Prop} (close : Token)
    (hitem : ∀ earlier s, Yields (item earlier) (fun x _ => P x) s) (s : State) :
    Yields (g.listed close item) (fun items _ => ∀ x ∈ items, P x) s := by
  refine collect_yields (fun earlier s _ => ?_) s
  refine .skip fun atClose s => ?_
  split
  · exact .pure trivial
  · exact (hitem earlier s).bind fun x s hx => .skip fun _ s => .pure hx

theorem itemsUpTo_yields {item : Parser α} {P : α → Prop} (close : Token)
    (hitem : ∀ s, Yields item (fun x _ => P x) s) (s : State) :
    Yields (g.itemsUpTo close item) (fun items _ => ∀ x ∈ items, P x) s := by
  refine collect_yields (fun earlier s _ => ?_) s
  refine .skip fun atClose s => ?_
  split
  · exact .pure trivial
  · refine .skip fun atEnd s => stops_unexpected.guard ?_
    exact (hitem s).bind fun x s hx => .pure hx

end Phrases

theorem isBareArrow_frame (e : Expression) (s : State) :
    Yields (isBareArrow e) (fun _ s' => s' = s) s := by
  unfold isBareArrow
  split <;> exact rfl

theorem refusePrivateName_frame (e : Expression) (s : State) :
    Yields (refusePrivateName e) (fun _ s' => s' = s) s := by
  unfold refusePrivateName
  split
  · exact (stops_failAt _ _).yields
  · exact .pure rfl

theorem checkMixing_yields (a b : Option Token) (s : State) :
    Yields (checkMixing a b)
      (fun _ s' => s' = s ∧ ∀ x ∈ a, ∀ y ∈ b, mixesCoalesce x y = false) s := by
  unfold checkMixing
  split
  · rename_i x y
    split
    · exact (stops_fail _).yields
    · rename_i hmixes
      refine .pure ⟨rfl, ?_⟩
      rintro _ ⟨⟩ _ ⟨⟩
      exact Bool.eq_false_iff.mpr hmixes
  · rename_i hnone
    refine .pure ⟨rfl, fun x hx y hy => ?_⟩
    exact absurd hy (hnone x y hx)

theorem checkMixing_frame (a b : Option Token) (s : State) :
    Yields (checkMixing a b) (fun _ s' => s' = s) s :=
  (checkMixing_yields a b s).mono fun _ _ hs' => hs'.1

theorem checkCover_frame (e : Expression) (s : State) :
    Yields (checkCover e) (fun _ s' => s' = { s with cover := Cover.none }) s := by
  unfold checkCover checkCovers
  refine .run rfl (.run rfl ?_)
  dsimp only
  split
  · exact (stops_failAt _ _).yields
  · split
    · exact (stops_failAt _ _).yields
    · exact .pure rfl

end EcmaSyntax.Grammar
