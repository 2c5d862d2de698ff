import EcmaSyntax.Proofs.Grammar.Outcome
import EcmaSyntax.Proofs.Lexer.Safety
import EcmaSyntax.Unicode.IdentifierRanges

/-!
The tokens and comments that a parse reports tile the text. The tokens follow each
other with gaps between them, and the comments are those of the gaps. Nothing that a
parse does between two tokens, neither looking ahead nor reading the current token
anew, breaks the tiling.
-/

namespace EcmaSyntax.Grammar

open EcmaSyntax.Diagnostic EcmaSyntax.Lexer EcmaSyntax.Text

section

variable {version : Nat} [Unicode.IdentifierChars version]

section Tiles

/-- A text that another text follows: tokens in their order, a gap before each of them
and one after the last, with the comments of the gaps. -/
inductive Tiles (html : Bool) : List Char → List Char → List TokenRecord → List Comment → Prop
  | gap {gap after comments} (h : Gap html 0 gap after comments) : Tiles html gap after [] comments
  | token {before raw gap after records comments more} (kind : Token)
      (h : Tiles html before (raw ++ (gap ++ after)) records comments) (hraw : raw ≠ [])
      (hgap : Gap html (byteLength (before ++ raw)) gap after more) :
      Tiles html (before ++ raw ++ gap) after
        (records ++ [⟨kind, String.ofList raw, ⟨byteLength before, byteLength (before ++ raw)⟩⟩])
        (comments ++ more)

/-- Comments that stand in their order in a part of the text. -/
structure CommentsIn (start stop : Nat) (comments : List Comment) : Prop where
  inside : ∀ comment ∈ comments, start ≤ comment.start ∧ comment.start < comment.stop ∧
    comment.stop ≤ stop
  ordered : comments.Pairwise fun a b => a.stop ≤ b.start

/-- Tokens that stand in their order in a part of the text. -/
structure TokensIn (text : List Char) (stop : Nat) (records : List TokenRecord) : Prop where
  inside : ∀ record ∈ records, record.span.start < record.span.stop ∧ record.span.stop ≤ stop
  raw : ∀ record ∈ records,
    slice? text record.span.start record.span.stop = some record.raw.toList
  ordered : records.Pairwise fun a b => a.span.stop ≤ b.span.start

theorem CommentsIn.append {start middle stop : Nat} {first second : List Comment}
    (h : CommentsIn start middle first) (h' : CommentsIn middle stop second)
    (hstart : start ≤ middle) (hstop : middle ≤ stop) :
      CommentsIn start stop (first ++ second) := by
  refine ⟨fun comment hmem => ?_, ?_⟩
  · rcases List.mem_append.mp hmem with hmem | hmem
    · have hfirst := h.inside comment hmem
      omega
    · have hsecond := h'.inside comment hmem
      omega
  · refine List.pairwise_append.mpr ⟨h.ordered, h'.ordered, fun a ha b hb => ?_⟩
    have hfirst := h.inside a ha
    have hsecond := h'.inside b hb
    omega

theorem CommentsIn.cons {start middle stop : Nat} {comment : Comment} {comments : List Comment}
    (h : CommentsIn middle stop comments) (hstart : comment.start = start)
    (hmiddle : comment.stop = middle) (hlt : start < middle) (hstop : middle ≤ stop) :
    CommentsIn start stop (comment :: comments) := by
  have hone : CommentsIn start middle [comment] := by
    refine ⟨fun other hmem => ?_, List.pairwise_singleton _ _⟩
    rw [List.mem_singleton.mp hmem]
    omega
  exact hone.append h (Nat.le_of_lt hlt) hstop

theorem commentsIn_of_gap {html : Bool} {offset : Nat} {gap after : List Char}
    {comments : List Comment} (h : Gap html offset gap after comments) :
    CommentsIn offset (offset + byteLength gap) comments := by
  induction h with
  | done => exact ⟨by simp, .nil⟩
  | @blank offset c gap after comments hc _ ih =>
    have hlead : CommentsIn offset (offset + c.utf8Size) [] := ⟨by simp, .nil⟩
    rw [byteLength, ← Nat.add_assoc]
    exact hlead.append ih (Nat.le_add_right _ _) (Nat.le_add_right _ _)
  | @line offset kind opening body gap after comments hopening _ _ _ ih =>
    have hpos : 0 < byteLength (opening ++ body) := byteLength_pos (by cases hopening <;> simp)
    rw [byteLength_append, ← Nat.add_assoc]
    exact ih.cons rfl rfl (by omega) (Nat.le_add_right _ _)
  | @block offset body gap after comments _ _ ih =>
    have hpos : 0 < byteLength (['/', '*'] ++ body ++ ['*', '/']) := byteLength_pos (by simp)
    rw [byteLength_append, ← Nat.add_assoc]
    exact ih.cons rfl rfl (by omega) (Nat.le_add_right _ _)

namespace Tiles

variable {html : Bool} {before after : List Char} {records : List TokenRecord}
  {comments : List Comment}

/-- A gap that follows goes on with the last gap. -/
theorem extend {gap more : List Char} {new : List Comment}
    (h : Tiles html before more records comments) (hmore : more = gap ++ after)
    (hgap : Gap html (byteLength before) gap after new) :
    Tiles html (before ++ gap) after records (comments ++ new) := by
  cases h with
  | gap hfirst =>
    refine .gap (hfirst.append hmore ?_)
    rwa [Nat.zero_add]
  | @token before raw last _ records comments last' kind htiles hraw hlast =>
    rw [List.append_assoc (before ++ raw), List.append_assoc comments]
    rw [byteLength_append] at hgap
    refine .token kind ?_ hraw (hlast.append hmore hgap)
    rwa [List.append_assoc, ← hmore]

theorem comments_in (h : Tiles html before after records comments) :
    CommentsIn 0 (byteLength before) comments := by
  induction h with
  | gap hgap =>
    have hin := commentsIn_of_gap hgap
    rwa [Nat.zero_add] at hin
  | token kind _ _ hgap ih =>
    have hin := commentsIn_of_gap hgap
    rw [← byteLength_append] at hin
    refine CommentsIn.append ?_ hin (Nat.zero_le _) (by simp [byteLength_append])
    refine ⟨fun comment hmem => ?_, ih.ordered⟩
    have hinside := ih.inside comment hmem
    rw [byteLength_append]
    omega

theorem tokens_in (h : Tiles html before after records comments) :
    TokensIn (before ++ after) (byteLength before) records := by
  induction h with
  | gap => exact ⟨by simp, by simp, .nil⟩
  | @token before raw gap after records comments more kind _ hraw _ ih =>
    have hpos : 0 < byteLength raw := byteLength_pos hraw
    rw [List.append_assoc, List.append_assoc]
    refine ⟨fun record hmem => ?_, fun record hmem => ?_, ?_⟩
    · simp only [byteLength_append]
      rcases List.mem_append.mp hmem with hmem | hmem
      · have hinside := ih.inside record hmem
        omega
      · rw [List.mem_singleton.mp hmem]
        simp only [byteLength_append]
        omega
    · rcases List.mem_append.mp hmem with hmem | hmem
      · exact ih.raw record hmem
      · rw [List.mem_singleton.mp hmem, String.toList_ofList, byteLength_append]
        exact slice?_append before raw (gap ++ after)
    · refine List.pairwise_append.mpr ⟨ih.ordered, List.pairwise_singleton _ _, fun a ha b hb => ?_⟩
      rw [List.mem_singleton.mp hb]
      exact (ih.inside a ha).2

end Tiles

end Tiles

section Moves

/-- What a parse does with the tokens of the text. -/
inductive Move where
  | next
  | nextInTag
  | nextChild
  | nextAttributeValue
  | peekNext
  | peekSecond
  | rescanRegex
  | rescanTemplate
  | scanMarkupName
deriving DecidableEq, Repr

namespace Move

def run : Move → Parser Unit
  | .next => Grammar.next
  | .nextInTag => Grammar.nextInTag
  | .nextChild => Grammar.nextChild
  | .nextAttributeValue => Grammar.nextAttributeValue
  | .peekNext => do let _ ← Grammar.peekNext
  | .peekSecond => do let _ ← Grammar.peekSecond
  | .rescanRegex => do let _ ← withLexer Lexer.rescanRegex
  | .rescanTemplate => do let _ ← withLexer Lexer.rescanTemplate
  | .scanMarkupName => withLexer Lexer.scanMarkupName

/-- The move goes on to another token. -/
def takes : Move → Bool
  | .next | .nextInTag | .nextChild | .nextAttributeValue => true
  | _ => false

/-- Only a slash is read as a regular expression, and only a closing brace as part of
a template. -/
def IsAllowed (move : Move) (token : Token) : Prop :=
  match move with
  | .rescanRegex => token = .divide ∨ token = .divideAssign
  | .rescanTemplate => token = .rightBrace
  | _ => True

instance (move : Move) (token : Token) : Decidable (move.IsAllowed token) :=
  match move with
  | .rescanRegex => inferInstanceAs (Decidable (_ ∨ _))
  | .rescanTemplate => inferInstanceAs (Decidable (_ = _))
  | .next | .nextInTag | .nextChild | .nextAttributeValue | .peekNext | .peekSecond
  | .scanMarkupName => inferInstanceAs (Decidable True)

/-- The state that moves lead to, one after the other, if each is allowed and none
fails. -/
def runAll : List Move → State → Option State
  | [], s => some s
  | move :: rest, s =>
    if move.IsAllowed s.token then
      match move.run s with
      | .ok () s' => runAll rest s'
      | .error _ _ => none
    else none

end Move

end Moves

section Invariant

/-- What is reported tiles the text before the current token, which ends the text only
where the text ends. -/
structure Tiled (html : Bool) (text : List Char) (begun : Bool) (s : State)
    (before raw : List Char) : Prop where
  place : s.lexer.start.In text before
  token : IsToken s.lexer raw
  tiles : Tiles html before s.lexer.start.rest s.observations.tokens.toList
    s.observations.comments.toList
  ending : begun = true → s.token = .endOfSource → s.lexer.start.rest = []
  pending : s.lexer.comments = []
  html : s.lexer.htmlComments = html
  collect : s.lexer.collectComments = true
  observing : s.observing = true

/-- The parse stands somewhere in a tiling. -/
def IsTiled (html : Bool) (text : List Char) (begun : Bool) (s : State) : Prop :=
  ∃ before raw, Tiled html text begun s before raw

variable {html begun : Bool} {text before raw : List Char} {s : State}

theorem tiled_initial (options : Options) (text : List Char) :
    Tiled (options.webCompat && !options.module) text false
      (State.initial options true text) [] [] :=
  ⟨.refl _, ⟨.refl _, .of_none rfl rfl _, fun _ => rfl, fun _ => rfl⟩, .gap .done, nofun,
    rfl, rfl, rfl, rfl⟩

/-- The tokens reported once the current one is taken. -/
theorem Tiled.recordToken (h : Tiled html text begun s before raw) :
    s.recordToken.observations.comments = s.observations.comments ∧
      ∀ gap after more, s.lexer.cursor.rest = gap ++ after →
        Gap html s.lexer.cursor.offset gap after more →
          Tiles html (before ++ raw ++ gap) after s.recordToken.observations.tokens.toList
            (s.observations.comments.toList ++ more) := by
  have hcursor : s.lexer.cursor.In text (before ++ raw) := h.place.trans h.token.extent
  have hoffset := hcursor.offset_eq
  have hrest : s.lexer.start.rest = raw ++ s.lexer.cursor.rest := h.token.extent.rest
  have htiles := h.tiles
  unfold State.recordToken
  by_cases hend : s.token = .endOfSource
  · -- Nothing is taken at the end, so the gap goes on.
    have hraw : raw = [] := h.token.isEmpty.mpr hend
    subst hraw
    rw [h.observing, hend]
    refine ⟨rfl, fun gap after more hmore hgap => ?_⟩
    rw [List.append_nil] at hoffset ⊢
    rw [hoffset] at hgap
    exact htiles.extend (hrest.trans hmore) hgap
  · have hraw : raw ≠ [] := fun hnil => hend (h.token.isEmpty.mp hnil)
    have hrecord : (s.observing && s.token != .endOfSource) = true := by simp [h.observing, hend]
    rw [if_pos hrecord]
    refine ⟨rfl, fun gap after more hmore hgap => ?_⟩
    have htext : s.raw = String.ofList raw := congrArg String.ofList h.token.extent.textTo
    have hspan : s.lexer.span = ⟨byteLength before, byteLength (before ++ raw)⟩ := by
      unfold State.span
      rw [hoffset, h.place.offset_eq]
    rw [hrest, hmore] at htiles
    rw [hoffset] at hgap
    dsimp only
    rw [Array.toList_push, htext, hspan]
    exact .token s.token htiles hraw hgap

/-- Taking the current token and going on to the next. -/
theorem Tiled.advance (h : Tiled html text begun s before raw) {step : Lexer Token}
    {E : Failure → Prop} (hstep : Meets E step (fun _ lexer => HasScanned s.lexer lexer) s.lexer) :
    Yields (advance step) (fun _ s' => IsTiled html text true s') s := by
  obtain ⟨hcomments, htokens⟩ := h.recordToken
  obtain ⟨observations, hrecord⟩ := recordToken_frame s
  unfold Grammar.advance
  refine .run rfl ?_
  dsimp only
  rw [hrecord] at hcomments htokens ⊢
  refine Meets.bind (Meets.withLexer (Q := fun _ lexer => HasScanned s.lexer lexer)
    (hstep.weaken fun _ _ => trivial)) fun _ s₁ hs₁ => .run rfl ?_
  obtain ⟨lexer, ⟨gap, raw', comments, hscanned⟩, rfl⟩ := hs₁
  rw [if_pos h.observing]
  refine .run rfl (.ok rfl ?_)
  have hpassed : lexer.start.In text (before ++ raw ++ gap) :=
    (h.place.trans h.token.extent).trans hscanned.passed
  have hgap := hscanned.trivia
  rw [h.html] at hgap
  have hcollected : lexer.comments = comments := by
    rw [hscanned.collected, h.collect, h.pending]
    rfl
  have htiles := htokens gap _ comments hscanned.passed.rest hgap
  change IsTiled html text true (State.recordComments { s with
    lexer := { lexer with comments := [] }
    observations := observations
    previousEnd := s.lexer.cursor.offset } lexer.comments)
  unfold State.recordComments
  rw [if_pos h.observing, hcollected]
  refine ⟨before ++ raw ++ gap, raw', hpassed, ?_, ?_, fun _ =>
    hscanned.ending, rfl, ?_, ?_, h.observing⟩
  · exact ⟨hscanned.token.extent, hscanned.token.shape, hscanned.token.isEmpty⟩
  · dsimp only at hcomments htiles ⊢
    rw [hcomments, Array.toList_append, List.toList_toArray]
    exact htiles
  · exact hscanned.html.trans h.html
  · exact hscanned.collect.trans h.collect

/-- Reading the current token anew. -/
theorem Tiled.rescanned (h : Tiled html text begun s before raw) {lexer : Lexer.State}
    (hstep : HasRescanned s.lexer lexer) : IsTiled html text begun { s with lexer := lexer } := by
  obtain ⟨raw', hrescanned⟩ := hstep
  refine ⟨before, raw', ?_, hrescanned.token, ?_, fun hbegun hend => ?_, ?_, ?_, ?_, h.observing⟩
  · change lexer.start.In text before
    rw [hrescanned.start]
    exact h.place
  · change Tiles html before lexer.start.rest _ _
    rw [hrescanned.start]
    exact h.tiles
  · change lexer.start.rest = []
    rw [hrescanned.start]
    exact h.ending hbegun (hrescanned.ending hend)
  · exact hrescanned.comments.trans h.pending
  · exact hrescanned.html.trans h.html
  · exact hrescanned.collect.trans h.collect

/-- Looking ahead leaves no comment behind. -/
theorem Tiled.restore (h : Tiled html text begun s before raw) (now : Lexer.State) :
    IsTiled html text begun { s with lexer := s.lexer.restore now } := by
  refine ⟨before, raw, h.place, ⟨h.token.extent, h.token.shape, h.token.isEmpty⟩, h.tiles, h.ending,
    ?_, h.html, h.collect, h.observing⟩
  change now.comments.take s.lexer.comments.length = []
  rw [h.pending]
  rfl

theorem Tiled.lookAhead (h : Tiled html text begun s before raw) {α : Type} {step : Lexer α}
    {found : α} {now : Lexer.State} (hstep : step s.lexer = .ok found (s.lexer.restore now)) :
    Yields (withLexer step) (fun _ s' => IsTiled html text begun s') s := by
  have hrun : withLexer step s = .ok found { s with lexer := s.lexer.restore now } := by
    unfold withLexer
    rw [hstep]
  exact .ok hrun (h.restore now)

theorem Tiled.readAnew (h : Tiled html text begun s before raw) {α : Type} {step : Lexer α}
    {E : Failure → Prop} (hstep : Meets E step
    (fun _ lexer => HasRescanned s.lexer lexer) s.lexer) :
    Yields (withLexer step) (fun _ s' => IsTiled html text begun s') s := by
  refine (hstep.withLexer.mono fun _ s' hs' => ?_).weaken fun _ _ => trivial
  obtain ⟨lexer, hlexer, rfl⟩ := hs'
  exact h.rescanned hlexer

/-- Every move keeps the tiling. -/
theorem Tiled.move (h : Tiled html text begun s before raw) {move : Move}
    (hallowed : move.IsAllowed s.token) :
    Yields move.run (fun _ s' => IsTiled html text (move.takes || begun) s') s := by
  cases move with
  | next => exact h.advance (scanMerged_meets s.lexer)
  | nextInTag => exact h.advance (scan_meets s.lexer)
  | nextChild => exact h.advance (scanMarkupChild_meets s.lexer)
  | nextAttributeValue => exact h.advance (scanMarkupAttributeValue_meets s.lexer)
  | peekNext =>
    obtain ⟨found, now, hpeek⟩ := peek_restores s.lexer
    exact (h.lookAhead hpeek).bind fun _ s' hs' => .pure hs'
  | peekSecond =>
    obtain ⟨found, now, hahead⟩ := lookAhead_restores (do let _ ← scan; scan) s.lexer
    refine Meets.bind ((h.lookAhead hahead).bind fun found s' hs' => ?_) fun _ s' hs' => .pure hs'
    cases found with
    | ok token => exact .pure hs'
    | error failure => exact .pure hs'
  | rescanRegex =>
    exact (h.readAnew (rescanRegex_meets s.lexer)).bind fun _ s' hs' => .pure hs'
  | rescanTemplate =>
    exact (h.readAnew (rescanTemplate_meets h.token hallowed)).bind fun _ s' hs' => .pure hs'
  | scanMarkupName => exact h.readAnew (scanMarkupName_meets h.token)

/-- A run of moves keeps the tiling. -/
theorem IsTiled.runAll {moves : List Move} {s' : State} (h : IsTiled html text begun s)
    (hrun : Move.runAll moves s = some s') :
    IsTiled html text (moves.any Move.takes || begun) s' := by
  induction moves generalizing begun s with
  | nil =>
    cases hrun
    exact h
  | cons move rest ih =>
    rw [Move.runAll] at hrun
    split at hrun
    · rename_i hallowed
      split at hrun
      · rename_i s₁ hok
        obtain ⟨before, raw, htiled⟩ := h
        have hrest := ih ((htiled.move hallowed).result hok) hrun
        rwa [List.any_cons, Bool.or_comm move.takes, Bool.or_assoc]
      · cases hrun
    · cases hrun

end Invariant

/-- A regular expression that starts like an assignment, comments, and a tag with a
hyphen in its name and slashes in the text after it. -/
def markupText : List Char := "/=é/ /*1*/ <a-b>//ü".toList

/-- Moves through the text up to its end. -/
def markupMoves : List Move :=
  [.next, .rescanRegex, .peekSecond, .next, .nextInTag, .scanMarkupName, .nextInTag, .nextChild,
    .next]

/-- What the moves through the text report. -/
def IsMarkupReport (s : State) : Prop :=
  s.observations.tokens.toList.map (·.raw) = ["/=é/", "<", "a-b", ">", "//ü"] ∧
    s.observations.comments.toList.map (·.value) = ["1"] ∧ s.token = .endOfSource

instance (s : State) : Decidable (IsMarkupReport s) := inferInstanceAs (Decidable (_ ∧ _ ∧ _))

end

end EcmaSyntax.Grammar
