import EcmaSyntax.Print.Program
import EcmaSyntax.Proofs.Formula.Recovery
import EcmaSyntax.Proofs.Formula.Text
import EcmaSyntax.Unicode.IdentifierRanges

/-!
A program that is one formula. It is printed as the words of the formula with a
semicolon and a line break after them, and a parse of this text gives the program
back, unless the formula is nested too deeply for it.
-/

namespace EcmaSyntax.Grammar

open EcmaSyntax.Diagnostic EcmaSyntax.Lexer EcmaSyntax.Print EcmaSyntax.Text EcmaSyntax.Tree

variable {version : Nat} [Unicode.IdentifierChars version]

section Statements

variable {s : State} {w w' t : Word} {ws ts : List Word} {size fuel : Nat} {e : Expression}

/-- The token after the current one is seen, but for what a closing angle bracket
is merged with, and the words are still ahead. -/
theorem Ahead.peekToken (h : Ahead s (w :: w' :: ws)) :
    ∃ token s', peekToken s = .ok token s' ∧ Ahead s' (w :: w' :: ws) ∧
      (token = w'.token ∨ token = .greaterThan) := by
  obtain ⟨hat, hspells⟩ := h.lexer
  generalize hrest : s.lexer.cursor.rest = rest at hspells
  cases hspells with
  | word hword hrest' =>
    obtain ⟨first, lexer, _, hscan, -, hfirst, -, -⟩ := hword.reads _ s.lexer hat.plain hrest
    let s' : State := { s with lexer := s.lexer.restore lexer }
    have hpeek : peekNext s = .ok (first, lexer.flags) s' := by
      have hlook : (lookAhead do
          let token ← scan
          return (token, (← get).flags) : Lexer (Except Failure (Token × TokenFlags))) s.lexer =
            .ok (.ok (first, lexer.flags)) (s.lexer.restore lexer) := by
        unfold lookAhead
        rw [bind_of_ok hscan]
        rfl
      unfold peekNext withLexer peek
      rw [bind_of_ok hlook]
      rfl
    refine ⟨first, s', (bind_of_ok hpeek).trans rfl, ?_, hfirst⟩
    refine ⟨h.observing, h.cover, ⟨⟨?_, hat.token, hat.value, hat.escaped, hat.lineBreak⟩, ?_⟩⟩
    · exact ⟨hat.plain.html, hat.plain.collect⟩
    · change Spells s.lexer.cursor.rest (w' :: ws)
      rw [hrest]
      exact .word hword hrest'

/-- What opens a formula is no label. -/
theorem Ahead.isLabel (h : Ahead s (w :: w' :: ws)) (hopens : isOpening (w :: w' :: ws) = true) :
    ∃ s', (pure w.token.isIdentifier <&&> return (← Grammar.peekToken) == Token.colon : Parser Bool)
        s = .ok false s' ∧ Ahead s' (w :: w' :: ws) := by
  simp only [isOpening, Bool.and_eq_true, Bool.not_eq_true', Bool.and_eq_false_iff] at hopens
  cases hname : w.token.isIdentifier with
  | false => exact ⟨s, rfl, h⟩
  | true =>
    obtain ⟨token, s', hpeek, hs', htoken⟩ := h.peekToken
    have hcolon : (token == Token.colon) = false := by
      rcases htoken with rfl | rfl
      · exact hopens.2.resolve_left (by simp [hname])
      · rfl
    refine ⟨s', ?_, hs'⟩
    have hright : (do return (← Grammar.peekToken) == Token.colon : Parser Bool) s =
        .ok false s' := by
      rw [bind_of_ok hpeek, hcolon]
      rfl
    exact hright

/-- The semicolon that ends a statement is taken. -/
theorem endStatement_meets {E : Failure → Prop} {Q : Unit → State → Prop}
    (h : Ahead s (Word.sign .semicolon :: ws))
    (hQ : ∀ s', Ahead s' ws → Q () s') : Meets E endStatement Q s := by
  obtain ⟨s', hnext, -, hs'⟩ := h.next
  unfold endStatement
  refine .run h.currentToken ?_
  exact .yes rfl (.ok hnext (hQ s' hs'))

/-- The statement read is the formula, and there are no words after it. -/
def IsStatementOf (e : Expression) (statement : Statement) (s : State) : Prop :=
  statement.withoutSpans = (Statement.expression noSpan e none).withoutSpans ∧ Ahead s []

/-- A statement that starts like a formula is no other statement. -/
theorem statementBody_meets {E : Failure → Prop} {Q : Statement → State → Prop} {g : Phrases}
    {ctx : Context} {position : Position} (h : Ahead s (w :: ws))
    (hw : startsFormula w.token = true)
    (hstatement : Meets E (expressionOrLabeled g ctx s.start position) Q s) :
    Meets E (statementBody g ctx position) Q s := by
  unfold statementBody
  refine .run rfl (.run h.currentToken (.run h.isEscaped (.no (by simp) ?_)))
  generalize w.token = token at hw
  cases token <;> first | exact hstatement | cases hw

variable (h : Formula e) (hahead : Ahead s (formulaWords e ++ [.sign .semicolon]))
  (hroom : Room size fuel ws) (hlt : (formulaWords e ++ [Word.sign .semicolon]).length < ws.length)

include h hahead hroom hlt

theorem expressionOrLabeled_meets (start : Nat) (position : Position) :
    Meets IsTooDeep (expressionOrLabeled (phrases .script size fuel) .none start position)
      (IsStatementOf e) s := by
  have hopening := opens_formulaWords (.base h) (.sign .semicolon) [] (by decide)
  obtain ⟨w, ws', hwords, -⟩ := (opens_formulaWords (.base h)).exists_head
  obtain ⟨w', ws'', hrest⟩ : ∃ w' ws'', ws' ++ [Word.sign .semicolon] = w' :: ws'' := by
    cases ws' with
    | nil => exact ⟨_, _, rfl⟩
    | cons w' ws'' => exact ⟨_, _, rfl⟩
  have hfirst : formulaWords e ++ [.sign .semicolon] = w :: w' :: ws'' := by
    rw [hwords, List.cons_append, hrest]
  rw [hfirst] at hahead hopening
  obtain ⟨s₁, hlabel, hs₁⟩ := hahead.isLabel hopening
  rw [← hfirst] at hs₁
  unfold expressionOrLabeled
  refine .run hahead.currentToken (.run hlabel (.no rfl ?_))
  refine (expression_meets h (readable h).items hs₁ rfl hroom hlt).bind fun e' s₂ he' => ?_
  obtain ⟨hsame, hs₂⟩ := he'
  refine (endStatement_meets hs₂ (Q := fun _ s' => Ahead s' []) fun _ hs' => hs').bind
    fun _ s₃ hs₃ => .run rfl (.pure ⟨?_, hs₃⟩)
  change Statement.expression noSpan e'.withoutSpans none = .expression noSpan e.withoutSpans none
  rw [hsame]

theorem statement_meets (position : Position) :
    Meets IsTooDeep (statement (phrases .script size fuel) .none position) (IsStatementOf e) s := by
  obtain ⟨w, ws', hwords, hw⟩ := (opens_formulaWords (.base h)).exists_head
  unfold statement
  refine Meets.nested fun depth => ?_
  have hs := hahead.setDepth depth
  have hfirst := hs
  rw [hwords, List.cons_append] at hfirst
  refine statementBody_meets hfirst hw ?_
  refine (expressionOrLabeled_meets h hs hroom hlt _ position).mono fun statement s' hs' => ?_
  exact ⟨hs'.1, hs'.2.setDepth _⟩

theorem listItem_meets :
    Meets IsTooDeep (listItem (phrases .script size fuel) .none) (IsStatementOf e) s := by
  obtain ⟨w, ws', hwords, hw⟩ := (opens_formulaWords (.base h)).exists_head
  have hstatement := statement_meets h hahead hroom hlt .listItem
  rw [hwords, List.cons_append] at hahead
  -- No word that a formula starts with starts a declaration.
  have hnot : ∀ token, startsFormula token = false → atWord token s = .ok false s := by
    intro token htoken
    rw [hahead.atWord, beq_false_of_ne (ne_of_starts hw htoken)]
  have hand : ∀ (token : Token) (other : Parser Bool), startsFormula token = false →
      (atWord token <&&> other) s = .ok false s :=
    fun token other htoken => bind_of_ok (hnot token htoken)
  unfold listItem
  refine .run rfl (.run (hnot .functionKeyword rfl) (.no rfl ?_))
  refine .run (hand .asyncKeyword _ rfl) (.no rfl ?_)
  refine .run (hnot .classKeyword rfl) (.no rfl ?_)
  refine .run (hahead.atToken .at) (.no (by rw [phrases_options]; rfl) ?_)
  refine .run (hnot .constKeyword rfl) (.no rfl ?_)
  refine .run (hand .letKeyword _ rfl) (.no rfl ?_)
  refine .run (hand .importKeyword _ rfl) (.no rfl ?_)
  exact .run (hnot .exportKeyword rfl) (.no rfl hstatement)

end Statements

section Programs

variable {s : State} {size fuel : Nat} {e : Expression} {ws : List Word}

/-- There are no directives before a statement that starts with no string. -/
theorem prologue_meets {E : Failure → Prop} {Q : List Statement × Context → State → Prop} {w : Word}
    (h : Ahead s (w :: ws)) (hw : w.token ≠ .stringLiteral) {g : Phrases} (hsize : 0 < g.size)
    {ctx : Context} (simpleParams : Bool) (hQ : Q ([], ctx) s) :
    Meets E (prologue g ctx simpleParams) Q s := by
  obtain ⟨n, hn⟩ := Nat.exists_eq_add_of_lt hsize
  have hnot := h.atToken .stringLiteral
  rw [beq_false_of_ne hw] at hnot
  unfold prologue Phrases.collect
  rw [hn]
  refine Meets.bind (Q := fun found s' => found = [] ∧ s' = s) ?_ ?_
  · unfold collectAfter
    refine Meets.bind (Q := fun r s' => r = .stop ∧ s' = s) ?_ ?_
    · exact .run hnot (.yes rfl (.pure ⟨rfl, rfl⟩))
    · rintro _ _ ⟨rfl, rfl⟩
      exact .pure ⟨rfl, rfl⟩
  · rintro _ _ ⟨rfl, rfl⟩
    exact .pure hQ

/-- The statements of a program up to its end are one formula. -/
theorem bodyStatements_meets (h : Formula e)
    (hahead : Ahead s (formulaWords e ++ [.sign .semicolon])) (hroom : Room size fuel ws)
    (hlt : (formulaWords e ++ [Word.sign .semicolon]).length < ws.length) :
    Meets IsTooDeep (bodyStatements (phrases .script size (fuel + 1)) .none true .endOfSource)
      (fun body s' => ∃ statement, body.1 = [statement] ∧ IsStatementOf e statement s') s := by
  obtain ⟨w, ws', hwords, hw⟩ := (opens_formulaWords (.base h)).exists_head
  have hsize : 1 < size := by
    have := hroom.size
    simp only [List.length_append, List.length_singleton] at hlt
    omega
  have hfirst := hahead
  rw [hwords, List.cons_append] at hfirst
  unfold bodyStatements
  refine Meets.bind (Q := fun found s' => found = ([], .none) ∧ s' = s) ?_ ?_
  · exact prologue_meets hfirst (ne_of_starts hw rfl) (by rw [phrases_size]; omega) true ⟨rfl, rfl⟩
  rintro _ s₀ ⟨rfl, hs₀⟩
  rw [hs₀]
  -- The formula is ahead, or it has been read and the end is ahead.
  let Progress : Nat → List Statement → State → Prop := fun n earlier s' =>
    (n = 1 ∧ earlier = [] ∧ s' = s) ∨
      (n = 0 ∧ ∃ statement, earlier = [statement] ∧ IsStatementOf e statement s')
  refine Meets.bind (Meets.collectAfter (I := Progress) (Q := fun body s' =>
    ∃ statement, body = [statement] ∧ IsStatementOf e statement s') ?_ _ 1 [] s ?_ ?_) ?_
  · rintro n earlier s' (⟨rfl, rfl, rfl⟩ | ⟨rfl, statement, rfl, hstatement⟩)
    · refine .run (hfirst.atToken .endOfSource) (.no (beq_false_of_ne (ne_of_starts hw rfl)) ?_)
      refine .run (hfirst.atToken .endOfSource) (.no (beq_false_of_ne (ne_of_starts hw rfl)) ?_)
      refine (listItem_meets h hahead hroom hlt).bind fun statement s₁ hstatement => ?_
      exact .pure ⟨0, Nat.one_pos, .inr ⟨rfl, statement, rfl, hstatement⟩⟩
    · have hend : atToken .endOfSource s' = .ok true s' := by
        change EStateM.Result.ok (s'.token == Token.endOfSource) s' = _
        rw [show s'.token = .endOfSource from hstatement.2.lexer.2]
        rfl
      exact .run hend (.yes rfl (.pure ⟨statement, rfl, hstatement⟩))
  · rw [phrases_size]
    exact hsize
  · exact .inl ⟨rfl, rfl, rfl⟩
  · exact fun body s' hbody => .pure hbody

/-- A program whose text spells a formula and a semicolon is read as that formula. -/
theorem program_meets {text : List Char} (h : Formula e)
    (hspells : Spells text (formulaWords e ++ [.sign .semicolon])) (span : Span) :
    Meets IsTooDeep
      (program (phrases .script (text.length + 2) (8 * (text.length + 2))) (byteLength text))
      (fun found _ => found.withoutSpans =
        (Program.mk span false [.expression span e none]).withoutSpans)
      (State.initial .script false text) := by
  obtain ⟨s, hnext, -, hahead⟩ := next_of_spells (s := State.initial .script false text) rfl rfl
    ⟨rfl, rfl⟩ hspells
  have hlength := hspells.length_le
  have hroom : Room (text.length + 2) (8 * (text.length + 2) - 1)
      (.sign .semicolon :: (formulaWords e ++ [.sign .semicolon])) := by
    constructor <;> simp only [List.length_cons] <;> omega
  unfold program
  refine .run hnext ?_
  refine (bodyStatements_meets h hahead hroom (by simp)).bind fun body s' hbody => ?_
  obtain ⟨statement, hstatements, hstatement, -⟩ := hbody
  have hexports : checkExports Options.script s' = .ok () s' := rfl
  rw [phrases_options]
  refine .run hexports (.pure ?_)
  rw [hstatements]
  simp only [Program.withoutSpans, statementsWithoutSpans, hstatement]
  rfl

theorem endsSource_lineBreak : EndsSource ['\n'] := by
  intro s hplain hrest
  have htrivia : readTrivia false s.atLineStart s.cursor.offset s.cursor.rest =
      .ok ⟨[], true, true, 1⟩ := by
    rw [hrest]
    rfl
  have hbegin := beginToken_of_trivia hplain htrivia
  have hempty : (s.before ⟨[], true, true, 1⟩).cursor.rest = [] := by
    simp [State.before, hrest]
  let s' : Lexer.State := { s.before ⟨[], true, true, 1⟩ with token := .endOfSource }
  refine ⟨s', ?_, rfl, ⟨hplain.html, hplain.collect⟩⟩
  unfold scan
  refine (bind_of_ok hbegin).trans ((bind_of_ok rfl).trans ?_)
  rw [if_pos (by rw [hempty]; rfl)]
  rfl

variable [Unicode.LawfulIdentifierChars version]

/-- The text of a program that is one formula. -/
theorem spells_print (h : Formula e) (span span' : Span) :
    Spells (print .standard ⟨span, false, [.expression span' e none]⟩).toList
      (formulaWords e ++ [.sign .semicolon]) := by
  have hplace : isStringLiteral e = false := by
    cases h <;> rfl
  have hwritten : Written (expressionText .standard (statementPlace 0 e) e).toList _ :=
    isWritten (.base h) (statementPlace 0 e) rfl
  have hopen :
      ((statementPlace 0 e).forced || bindsBelow (statementPlace 0 e).least e) = false := by
    change (isStringLiteral e || bindsBelow .comma e) = false
    rw [hplace, bindsBelow_comma]
    rfl
  rw [hopen, inParentheses_false] at hwritten
  have hend : Spells [';', '\n'] [.sign .semicolon] :=
    spells_sign rfl rfl (.stop endsSource_lineBreak)
  have hspells := hwritten.spelled [';', '\n'] [.sign .semicolon] (by simp)
    (apart_sign (by decide) _) hend
  have htext : (print .standard ⟨span, false, [.expression span' e none]⟩).toList =
      (expressionText .standard (statementPlace 0 e) e).toList ++ [';', '\n'] := by
    have hline : statementText .standard 0 (.expression span' e none) =
        expressionText .standard (statementPlace 0 e) e ++ ";" := rfl
    have htrailing : Style.standard.trailing = true := rfl
    have hnewline : Style.standard.newline = "\n" := rfl
    simp [print, hline, htrailing, hnewline]
  rwa [htext]

end Programs

end EcmaSyntax.Grammar

namespace EcmaSyntax

open EcmaSyntax.Grammar EcmaSyntax.Lexer EcmaSyntax.Print EcmaSyntax.Text EcmaSyntax.Tree

section

variable {version : Nat} [Unicode.IdentifierChars version] [Unicode.LawfulIdentifierChars version]

/-- Printing a formula is undone by parsing, unless the text is nested too deeply. -/
theorem parse_print_formula {e : Expression} (h : Formula e) (span span' : Span) :
    match parse .script (print .standard ⟨span, false, [.expression span' e none]⟩) with
    | .ok found => found.withoutSpans =
        (Program.mk span false [.expression span' e none]).withoutSpans
    | .error failure => failure.cause = .nestingTooDeep := by
  have hmeets := program_meets h (spells_print h span span') span
  unfold Meets at hmeets
  unfold parse run
  split at hmeets
  · rename_i found s hok
    simp only [hok]
    exact hmeets
  · rename_i failure s herror
    simp only [herror]
    exact hmeets

/-- `o.in = (-a) ** b ?? (c || d), new (f().g)(...h)?.[[, (x, y)]]`, where the second item
is an optional chain. -/
def mixedFormula : Expression :=
  let name (text : String) : Expression := .identifier ⟨noSpan, text⟩
  .sequence noSpan
    [.assignment noSpan .assign (.member noSpan (name "o") (name "in") false false)
      (.logical noSpan
        (.binary noSpan (.unary noSpan .minus (name "a")) .exponentiate (name "b")) .coalesce
        (.logical noSpan (name "c") .or (name "d"))),
     .chain noSpan (.member noSpan
      (.newCall noSpan (.member noSpan (.call noSpan (name "f") [] false) (name "g") false false)
        [.spread noSpan (name "h")])
      (.array noSpan [.hole, .item (.sequence noSpan [name "x", name "y"])]) true true)]

end

theorem parse_print_mixedFormula : Formula mixedFormula ∧
    ∃ found, parse .script (print .standard
      ⟨noSpan, false, [.expression noSpan mixedFormula none]⟩) =
        .ok found ∧
      found.withoutSpans =
        (Program.mk noSpan false [.expression noSpan mixedFormula none]).withoutSpans := by
  have hname : ∀ text ∈ ["a", "b", "c", "d", "f", "g", "h", "o", "x", "y"],
      IsSpelling .identifier text := by
    simp only [List.forall_mem_cons, List.not_mem_nil, false_implies, implies_true, and_true]
    refine ⟨?_, ?_, ?_, ?_, ?_, ?_, ?_, ?_, ?_, ?_⟩ <;> exact ⟨_, rfl, rfl, rfl, rfl⟩
  have hvariable : ∀ text ∈ ["a", "b", "c", "d", "f", "g", "h", "o", "x", "y"],
      Formula (.identifier ⟨noSpan, text⟩) := fun text htext => .identifier (hname text htext)
  have hin : IsSpelling .inKeyword "in" := ⟨_, rfl, rfl, rfl, rfl⟩
  have htarget : Formula (.member noSpan (.identifier ⟨noSpan, "o"⟩) (.identifier ⟨noSpan, "in"⟩)
      false false) :=
    .member (hvariable "o" (by decide)) (.name (by decide) hin)
  have hconstructor : Formula (.member noSpan (.call noSpan (.identifier ⟨noSpan, "f"⟩) [] false)
      (.identifier ⟨noSpan, "g"⟩) false false) :=
    .member (.call (hvariable "f" (by decide)) (by simp) (by simp))
      (.name (by decide) (hname "g" (by decide)))
  have hitems :
    Formula (.sequence noSpan [.identifier ⟨noSpan, "x"⟩, .identifier ⟨noSpan, "y"⟩]) := by
    refine .sequence (List.forall_mem_cons.mpr ⟨?_, List.forall_mem_singleton.mpr ?_⟩) (by decide)
    · exact hvariable "x" (by decide)
    · exact hvariable "y" (by decide)
  have h : Formula mixedFormula := by
    refine .sequence (List.forall_mem_cons.mpr ⟨?_, List.forall_mem_singleton.mpr ?_⟩) (by decide)
    · refine .assignment rfl htarget (.logical (.binary (.unary ?_) ?_) (.logical ?_ ?_))
      · exact hvariable "a" (by decide)
      · exact hvariable "b" (by decide)
      · exact hvariable "c" (by decide)
      · exact hvariable "d" (by decide)
    · have hargument : FormulaElement (.spread noSpan (.identifier ⟨noSpan, "h"⟩)) :=
        .spread (hvariable "h" (by decide))
      have harguments := List.forall_mem_singleton.mpr hargument
      have harray : Formula (.array noSpan [.hole, .item _]) :=
        .array (List.forall_mem_cons.mpr ⟨.hole, List.forall_mem_singleton.mpr (.item hitems)⟩)
      exact .chain (Links.member (.base (.newCall hconstructor harguments (by simp)))
        (.computed harray))
  have hround := parse_print_formula h noSpan noSpan
  have hok : (parse .script
      (print .standard ⟨noSpan, false, [.expression noSpan mixedFormula none]⟩)).isOk = true := by
    decide +kernel
  split at hround
  · rename_i found hfound
    exact ⟨h, found, hfound, hround⟩
  · rename_i failure hfailure
    rw [hfailure] at hok
    cases hok

end EcmaSyntax
