import EcmaSyntax.Grammar.Program
import EcmaSyntax.Proofs.Formula.Ahead
import EcmaSyntax.Proofs.Formula.Form
import EcmaSyntax.Proofs.Grouping.Phrases
import EcmaSyntax.Proofs.Tree.Patterns

/-!
What it means that a phrase of the grammar recovers a formula from its words. The
phrase stops before a token that binds no more tightly than the phrase does, and
the registers of the parse say what the formula can be used for.
-/

namespace EcmaSyntax.Grammar

open EcmaSyntax.Diagnostic EcmaSyntax.Lexer EcmaSyntax.Print EcmaSyntax.Text EcmaSyntax.Tree

variable {version : Nat} [Unicode.IdentifierChars version]

variable {α β : Type}

section Tokens

variable {t : Token}

/-- How tightly a token after an expression holds on to it, on the scale of
`Precedence.rank`; a phrase of some rank stops before what holds no more tightly. -/
def hold (t : Token) : Nat :=
  if t == .comma then 1
  else if t.isAssignment then 2
  else if t == .question then 3
  else if t.isBinary then t.strength + 3
  else if t.isUpdate then 17
  else if t == .leftParen then 18
  else if t.isMemberOrCall then 19
  else if t == .arrow then 20
  else 0

theorem ne_of_hold {u : Token} {rank : Nat} (h : hold t ≤ rank) (hu : rank < hold u) : t ≠ u := by
  rintro rfl
  omega

theorem hold_of_isUpdate (h : t.isUpdate = true) : hold t = 17 := by
  revert h
  cases t <;> decide

theorem hold_of_isAssignment (h : t.isAssignment = true) : hold t = 2 := by
  revert h
  cases t <;> decide

theorem strength_or_hold (t : Token) : t.strength = 0 ∨ hold t = t.strength + 3 := by
  cases t <;> decide

/-- The tokens that a formula can start with. -/
def startsFormula (t : Token) : Bool :=
  t == .identifier || t == .thisKeyword || t == .leftBracket || t == .leftParen ||
    t == .newKeyword || t.isUnary || t.isUpdate

end Tokens

section Openings

/-- A formula starts with two such words, and not with a label. -/
def isOpening : List Word → Bool
  | w :: w' :: _ => startsFormula w.token && !(w.token.isIdentifier && w'.token == .colon)
  | _ => false

/-- The words are the start of a formula, whatever follows but a colon. -/
def Opens (words : List Word) : Prop :=
  ∀ t ts, t.token ≠ .colon → isOpening (words ++ t :: ts) = true

theorem Opens.exists_head {words : List Word} (h : Opens words) :
    ∃ w ws, words = w :: ws ∧ startsFormula w.token = true := by
  have hopening := h (.sign .comma) [] (by decide)
  match words with
  | [] => cases hopening
  | [w] =>
    simp only [List.cons_append, List.nil_append, isOpening, Bool.and_eq_true] at hopening
    exact ⟨w, [], rfl, hopening.1⟩
  | w :: w' :: ws =>
    simp only [List.cons_append, isOpening, Bool.and_eq_true] at hopening
    exact ⟨w, w' :: ws, rfl, hopening.1⟩

theorem ne_of_starts {t u : Token} (h : startsFormula t = true) (hu : startsFormula u = false) :
    t ≠ u := by
  rintro rfl
  simp [h] at hu

theorem Opens.append {words more : List Word} (h : Opens words)
    (hmore : ∀ w ∈ more.head?, w.token ≠ .colon) : Opens (words ++ more) := by
  intro t ts ht
  cases more with
  | nil => simpa using h t ts ht
  | cons w ws => simpa using h w (ws ++ t :: ts) (hmore w (by simp))

theorem Opens.enclose {words : List Word} (h : Opens words) (isEnclosed : Bool) :
    Opens (inParentheses isEnclosed words) := by
  cases isEnclosed with
  | false => exact h
  | true =>
    intro t ts _
    cases words <;> rfl

/-- A word that is no name starts a formula by itself. -/
theorem opens_of_starts {w : Word} (h : startsFormula w.token = true)
    (hname : w.token.isIdentifier = false) (words : List Word) : Opens (w :: words) := by
  intro t ts _
  cases words <;> simp [isOpening, h, hname]

theorem opens_memberWords {object property : List Word} (h : Opens object)
    (computed optional : Bool) : Opens (memberWords object property computed optional) := by
  refine h.append fun w hw => ?_
  cases computed <;> cases optional <;> cases hw <;> decide

theorem opens_withCommas {item : List Word} {items : List (List Word)} (h : Opens item) :
    Opens (withCommas (item :: items)) := by
  cases items with
  | nil => exact h
  | cons item' items =>
    refine h.append fun w hw => ?_
    cases hw
    decide

theorem opens_name {name : String} (h : IsSpelling .identifier name) : Opens [nameWord name] := by
  have hword : nameWord name = ⟨.identifier, name⟩ := by
    rw [nameWord, ← (h.isName rfl).token_eq]
  intro t ts ht
  simpa [isOpening, hword, startsFormula] using Or.inr ht

/-- Every formula starts like one. -/
theorem opens_formulaWords {found : Bool} {e : Expression} (h : Links found e) :
    Opens (formulaWords e) := by
  match e, h with
  | .member span object property computed optional, .member hobject _ =>
    rw [formulaWords]
    exact opens_memberWords ((opens_formulaWords hobject).enclose _) computed optional
  | .call span callee arguments optional, .call hcallee _ _ =>
    rw [formulaWords]
    refine ((opens_formulaWords hcallee).enclose _).append fun w hw => ?_
    cases optional <;> cases hw <;> decide
  | .identifier id, .base (.identifier h) => exact opens_name h
  | .thisKeyword span, .base .this => exact opens_of_starts rfl rfl _
  | .array span elements, .base (.array _) =>
    rw [formulaWords]
    exact opens_of_starts rfl rfl _
  | .member span object property computed false, .base (.member hobject _) =>
    rw [formulaWords]
    exact opens_memberWords ((opens_formulaWords (.base hobject)).enclose _) computed false
  | .call span callee arguments false, .base (.call hcallee _ _) =>
    rw [formulaWords]
    refine ((opens_formulaWords (.base hcallee)).enclose _).append fun w hw => ?_
    cases hw
    decide
  | .newCall span callee arguments, .base (.newCall _ _ _) =>
    rw [formulaWords]
    exact opens_of_starts rfl rfl _
  | .chain span inner, .base (.chain h) =>
    rw [formulaWords]
    exact opens_formulaWords h
  | .update span operator isBefore argument, .base (.update h _) =>
    rw [formulaWords]
    cases isBefore with
    | true => cases operator <;> exact opens_of_starts rfl rfl _
    | false =>
      refine ((opens_formulaWords (.base h)).enclose _).append fun w hw => ?_
      cases operator <;> cases hw <;> decide
  | .unary span operator argument, .base (.unary h) =>
    rw [formulaWords]
    cases operator <;> exact opens_of_starts rfl rfl _
  | .binary span left operator right, .base (.binary hleft _) =>
    rw [formulaWords]
    refine ((opens_formulaWords (.base hleft)).enclose _).append fun w hw => ?_
    cases operator <;> cases hw <;> decide
  | .logical span left operator right, .base (.logical hleft _) =>
    rw [formulaWords]
    refine ((opens_formulaWords (.base hleft)).enclose _).append fun w hw => ?_
    cases operator <;> cases hw <;> decide
  | .conditional span test consequent alternate, .base (.conditional htest _ _) =>
    rw [formulaWords]
    refine ((opens_formulaWords (.base htest)).enclose _).append fun w hw => ?_
    cases hw
    decide
  | .assignment span operator left right, .base (.assignment htarget hleft _) =>
    have hsize := sizeOf_lt_of_target htarget span operator right
    rw [formulaWords, targetWords_eq htarget]
    refine (opens_formulaWords (.base hleft)).append fun w hw => ?_
    cases operator <;> cases hw <;> decide
  | .sequence span (e :: es), .base (.sequence h _) =>
    rw [formulaWords, sequenceWords]
    exact opens_withCommas ((opens_formulaWords (.base (h e List.mem_cons_self))).enclose _)
termination_by sizeOf e

end Openings

section Steps

variable {s : State} {ws : List Word}

/-- Nothing is left open. -/
theorem Ahead.takeCover (h : Ahead s ws) : takeCover s = .ok Cover.none s := by
  change EStateM.Result.ok s.cover { s with cover := Cover.none } = _
  rw [h.cover, ← h.cover]

theorem Ahead.checkCover (h : Ahead s ws) (e : Expression) : checkCover e s = .ok () s :=
  (bind_of_ok h.takeCover).trans rfl

theorem Ahead.setDepth (h : Ahead s ws) (depth : Nat) : Ahead { s with depth := depth } ws :=
  ⟨h.observing, h.cover, h.lexer⟩

theorem Ahead.setAssignable (h : Ahead s ws) (assignable : Bool) :
    Ahead { s with assignable := assignable } ws :=
  ⟨h.observing, h.cover, h.lexer⟩

end Steps

section Recovery

/-- The result of a phrase is a formula but for spans, the words after it are
ahead, a target is known to be one, and a group is remembered. -/
structure Recovered (isEnclosed found : Bool) (e : Expression) (ws : List Word) (e' : Expression)
    (s : State) : Prop where
  same : e'.withoutSpans = e.withoutSpans
  ahead : Ahead s ws
  target : (isEnclosed || found) = false → isReference e = true → s.assignable = true
  group : isEnclosed = true → e'.start ∈ s.parenthesized

@[simp] theorem phrases_size (options : Options) (size fuel : Nat) :
    (phrases options size fuel).size = size := by
  cases fuel <;> rfl

@[simp] theorem phrases_options (options : Options) (size fuel : Nat) :
    (phrases options size fuel).options = options := by
  cases fuel <;> rfl

/-- There is fuel for the words, and loops are long enough for them. -/
structure Room (size fuel : Nat) (ws : List Word) : Prop where
  fuel : ws.length ≤ fuel
  size : ws.length < size

/-- Inside of a phrase there is room for fewer words. -/
theorem Room.smaller {size fuel : Nat} {ws ws' : List Word} (h : Room size (fuel + 1) ws)
    (hlt : ws'.length < ws.length) : Room size fuel ws' := by
  have hfuel := h.fuel
  have hsize := h.size
  exact ⟨by omega, by omega⟩

/-- The words of an expression, in parentheses or not. -/
abbrev wordsOf (isEnclosed : Bool) (e : Expression) : List Word :=
  inParentheses isEnclosed (formulaWords e)

/-- The phrase, which stops before what holds no more tightly than some rank,
recovers the expression from its words. -/
def Recovers (rank : Nat) (phrase : Phrases → Context → Parser Expression) (isEnclosed : Bool)
    (e : Expression) : Prop :=
  ∀ (size fuel : Nat) (s : State) (t : Word) (ts : List Word),
    Ahead s (wordsOf isEnclosed e ++ t :: ts) → hold t.token ≤ rank →
      Room size fuel (wordsOf isEnclosed e ++ t :: ts) →
        Meets IsTooDeep (phrase (phrases .script size fuel) .none)
          (Recovered isEnclosed false e (t :: ts)) s

/-- What does not look at spans is the same for trees that are but for spans. -/
theorem eq_of_same {f : Expression → α} (hf : ∀ e : Expression, f e.withoutSpans = f e)
    {e e' : Expression} (h : e'.withoutSpans = e.withoutSpans) : f e' = f e := by
  rw [← hf e', h, hf e]

def isPrivate : Expression → Bool
  | .privateIdentifier _ => true
  | _ => false

theorem isBareArrow_of_not_isArrow {e : Expression} (h : isArrow e = false) (s : State) :
    isBareArrow e s = .ok false s := by
  cases e <;> first | rfl | cases h

theorem refusePrivateName_of_not_isPrivate {e : Expression} (h : isPrivate e = false) (s : State) :
    refusePrivateName e s = .ok () s := by
  cases e <;> first | rfl | cases h

theorem not_isArrow_of_links {found : Bool} {e : Expression} (h : Links found e) :
    isArrow e = false := by
  cases h with
  | member => rfl
  | call => rfl
  | base h => cases h <;> rfl

theorem not_isPrivate_of_links {found : Bool} {e : Expression} (h : Links found e) :
    isPrivate e = false := by
  cases h with
  | member => rfl
  | call => rfl
  | base h => cases h <;> rfl

namespace Recovered

variable {isEnclosed found : Bool} {e e' : Expression} {ws : List Word} {s : State}

/-- Of what is no target only the tree matters. -/
theorem of_not_isReference (hsame : e'.withoutSpans = e.withoutSpans) (hahead : Ahead s ws)
    (h : isReference e = false) : Recovered false found e ws e' s :=
  ⟨hsame, hahead, fun _ he => by simp [h] at he, fun hfalse => by cases hfalse⟩

theorem isBareArrow (h : Recovered isEnclosed found e ws e' s) (hlinks : Links found e) :
    isBareArrow e' s = .ok false s := by
  refine isBareArrow_of_not_isArrow ?_ s
  exact (eq_of_same (fun e => by cases e <;> rfl) h.same).trans (not_isArrow_of_links hlinks)

theorem refusePrivateName (h : Recovered isEnclosed found e ws e' s) (hlinks : Links found e) :
    refusePrivateName e' s = .ok () s := by
  refine refusePrivateName_of_not_isPrivate ?_ s
  exact (eq_of_same (fun e => by cases e <;> rfl) h.same).trans (not_isPrivate_of_links hlinks)

end Recovered

end Recovery

end EcmaSyntax.Grammar
