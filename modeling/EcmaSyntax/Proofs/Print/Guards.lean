import EcmaSyntax.Proofs.Places.Program
import EcmaSyntax.Proofs.Print.Openings

/-!
What printed expressions start with. An expression that stands where it could be misread is
guarded: it gets parentheses if it starts with a brace, a function or a class. The guard goes along
the parts that stand at the start of each other, so the text of the whole starts with none of these
in whatever part its first token lies.
-/

namespace EcmaSyntax.Print

open EcmaSyntax.Grammar EcmaSyntax.Lexer EcmaSyntax.Number EcmaSyntax.Tree EcmaSyntax.Unicode

section

variable {version : Nat} [Unicode.IdentifierChars version]

variable {guard : Guard} {c : Char} {name first more : String} {rest tail : List Char}
  {token kind : Token} {tokens : List Token}

section Places

variable {p : Place} {e : Expression}

theorem guard_callee (p : Place) (e : Expression) : (p.callee e).guard = p.guard := by
  cases e <;> rfl

theorem guard_object (p : Place) (computed : Bool) (e : Expression) :
    (p.object computed e).guard = p.guard := by
  unfold Place.object
  split
  · split
    · rfl
    · exact guard_callee p _
  · exact guard_callee p e

theorem guard_operand (p : Place) (operator : LogicalOperator) (e : Expression) :
    (p.operand operator e).guard = p.guard := by
  unfold Place.operand
  split <;> rfl

theorem refuses_of_encloses (h : p.encloses e = false) : p.guard.refuses e = false := by
  simp only [Place.encloses, Bool.or_eq_false_iff] at h
  exact h.1.2

end Places

section Parts

theorem shields_member {object : String} (h : guard.Shields object) (property : String)
    (computed optional : Bool) : guard.Shields (memberText object property computed optional) := by
  unfold memberText
  refine h.append ?_
  cases computed <;> cases optional
  · exact attaches_sign (c := '.') (by simp) (by decide)
  · exact attaches_sign (c := '?') (by simp) (by decide)
  · exact attaches_sign (c := '[') (by simp) (by decide)
  · exact attaches_sign (c := '?') (by simp) (by decide)

theorem shields_commaSeparated {items : List String}
    (h : ∀ item, items.head? = some item → guard.Shields item) :
    guard.Shields (commaSeparated items) := by
  cases items with
  | nil => exact shields_head nofun
  | cons item items =>
    have hitem := h item rfl
    cases items with
    | nil => simpa [commaSeparated] using hitem
    | cons second items =>
      have htext : commaSeparated (item :: second :: items) =
          item ++ (", " ++ commaSeparated (second :: items)) := by
        simp [commaSeparated, String.intercalate_cons_cons, String.append_assoc]
      rw [htext]
      exact hitem.append (attaches_sign (c := ',') (by simp) (by decide))

theorem bars_signed (operator : UnaryOperator) (argument : String) :
    guard.Bars (signedText operator argument) := by
  unfold signedText
  cases operator
  case typeof =>
    exact (bars_keyword .typeofKeyword (by decide) rfl ⟨by rfl, by decide⟩).append argument
  case void =>
    exact (bars_keyword .voidKeyword (by decide) rfl ⟨by rfl, by decide⟩).append argument
  case delete =>
    exact (bars_keyword .deleteKeyword (by decide) rfl ⟨by rfl, by decide⟩).append argument
  all_goals
    rw [if_neg (by decide)]
    split
    · exact ((bars_sign rfl (by rfl) (by decide)).append " ").append argument
    · exact (bars_sign rfl (by rfl) (by decide)).append argument

theorem bars_arrow (isAsync : Bool) (params : List String) :
    guard.Bars ((if isAsync then "async " else "") ++ inParens params) := by
  cases isAsync with
  | false => exact bars_sign (c := '(') (by simp [inParens]) (by rfl) (by decide)
  | true =>
    intro rest
    have htext : ("async " ++ inParens params).toList ++ rest =
        "async".toList ++ ' ' :: '(' :: ((commaSeparated params).toList ++ ')' :: rest) := by
      simp [inParens]
    rw [if_pos rfl, htext]
    exact avoids_asyncArrow _

/-- What starts with no brace, where nothing but a brace is refused. -/
theorem bars_unbraced {text : String} (hguard : guard.openings ⊆ [[.leftBrace]])
    (htext : text.toList.head? = some c) (hc : c ≠ '\x7b') : guard.Bars text := by
  obtain ⟨tail, htail⟩ := List.head?_eq_some_iff.mp htext
  intro rest tokens htokens hstarts
  obtain rfl := List.mem_singleton.mp (hguard htokens)
  rw [htail] at hstarts
  exact hc (hstarts.signOf? rfl)

theorem bars_function (f : Function) (more : String) (hguard : guard.openings ⊆ [[.leftBrace]]) :
    guard.Bars (functionHead f ++ more) := by
  refine Guard.Bars.append ?_ more
  unfold functionHead
  cases f.isAsync with
  | true => exact bars_unbraced (c := 'a') hguard (by simp) (by decide)
  | false =>
    cases f.generator with
    | true => exact bars_unbraced (c := 'f') hguard (by simp) (by decide)
    | false => exact bars_unbraced (c := 'f') hguard (by simp) (by decide)

theorem bars_class (style : Style) (p : Place) (c : ClassDefinition)
    (hguard : guard.openings ⊆ [[.leftBrace]]) : guard.Bars (classText style p c) := by
  obtain ⟨span, id, superClass, bodySpan, elements, decorators⟩ := c
  rw [classText]
  cases decorators with
  | nil => exact bars_unbraced (c := 'c') hguard (by simp [decoratorsText]) (by decide)
  | cons decorator decorators =>
    obtain ⟨decoratorSpan, e⟩ := decorator
    exact bars_unbraced (c := '@') hguard (by simp [decoratorsText]) (by decide)

end Parts

section Expressions

variable {style : Style} {options : Options} {guard : Guard} {p : Place} {e : Expression}

/-- Where functions and classes are not refused, they start nothing else. -/
theorem openings_of_function (h : guard.refuses e = false) (he : isFunctionOrClass e = true) :
    guard.openings ⊆ [[.leftBrace]] := by
  cases guard with
  | none => exact nofun
  | forHead => exact nofun
  | arrowBody => exact List.Subset.refl _
  | statement => simp [Guard.refuses, he] at h
  | exportDefault => simp [Guard.refuses, he] at h

theorem bars_braces (hguard : [.leftBrace] ∉ guard.openings) {text : String}
    (htext : text.toList.head? = some '\x7b') : guard.Bars text := by
  obtain ⟨tail, htail⟩ := List.head?_eq_some_iff.mp htext
  intro rest
  rw [htail]
  exact avoids_sign rfl (by decide) (fun _ => hguard) _

theorem head_inlineBraces (items : List String) :
    (inlineBraces items).toList.head? = some '\x7b' := by
  unfold inlineBraces
  split <;> simp

theorem braces_of_refuses (h : guard.refuses e = false)
    (he : isObject e = true ∨ assignsObject e = true) : [.leftBrace] ∉ guard.openings := by
  cases guard with
  | none => exact nofun
  | forHead => exact nofun
  | exportDefault => decide
  | arrowBody => rcases he with he | he <;> simp [Guard.refuses, he] at h
  | statement => rcases he with he | he <;> simp [Guard.refuses, he] at h

/-- An expression that is enclosed in any case. -/
theorem bars_forced (h : p.forced = true) : guard.Bars (expressionText style p e) := by
  have hencloses : p.encloses e = true := by simp [Place.encloses, h]
  rw [expressionText.eq_def, hencloses]
  exact bars_sign (c := '(') (by simp [parens]) (by rfl) (by decide)

/-- A name to which something is assigned may be `let`. -/
theorem shields_nameTarget [LawfulIdentifierChars version] {name : String} (hword : IsWord name)
    (hreference : IsReference name) (operator : AssignmentOperator) (more : String) :
    guard.Shields (name ++ " " ++ operator.text ++ " " ++ more) := by
  intro rest _
  have hspaced : Separates operator.token := .inl (isSpaced_assignment operator)
  have htext : (name ++ " " ++ operator.text ++ " " ++ more).toList ++ rest =
      name.toList ++ ' ' :: (operator.token.text.toList ++ ' ' :: (more.toList ++ rest)) := by
    simp [AssignmentOperator.text]
  rw [htext]
  exact avoids_reference hword hreference (.spaced hspaced _) fun _ _ s s' token heq hscan =>
    (next_spaced hspaced _ s s' token heq hscan).2

/-- An assignment starts like its target, and a target that is a member like its object. -/
theorem shields_target [LawfulIdentifierChars version] {left : Pattern} (htarget : left.IsTarget)
    (operator : AssignmentOperator) (more : String)
    (hbrace : ∀ span properties, left = .object span properties → [.leftBrace] ∉ p.guard.openings)
    (hobject : ∀ span object property computed optional,
      left = .member span object property computed optional →
        p.guard.Shields (expressionText style (p.object computed object) object)) :
    p.guard.Shields (patternText style p left ++ " " ++ operator.text ++ " " ++ more) := by
  have hspaced : Separates operator.token := .inl (isSpaced_assignment operator)
  cases left with
  | identifier id =>
    rw [patternText]
    exact shields_nameTarget htarget.1 htarget.2 operator _
  | object span properties =>
    rw [patternText]
    exact (bars_braces (hbrace _ _ rfl) (head_inlineBraces _)).shields.operation hspaced _
  | array span elements =>
    rw [patternText]
    refine Guard.Shields.operation (Guard.Bars.shields ?_) hspaced _
    exact bars_sign (c := '[') (by simp [bracketed]) (by rfl) (by decide)
  | rest span argument =>
    rw [patternText]
    refine Guard.Shields.operation (Guard.Bars.shields ?_) hspaced _
    exact bars_sign (c := '.') (by simp) (by rfl) (by decide)
  | withDefault span target value => exact htarget.elim
  | member span object property computed optional =>
    rw [patternText]
    exact (shields_member (hobject _ _ _ _ _ rfl) _ computed optional).operation hspaced _
  | hole =>
    rw [patternText]
    have hempty : p.guard.Shields "" := shields_head (by rintro _ ⟨⟩)
    exact hempty.operation hspaced _

theorem shields_yield (delegate : Bool) (p : Place) (argument : Option Expression) :
    guard.Shields ((if delegate then "yield*" else "yield") ++
      optionalText style " " p argument) := by
  cases delegate with
  | true =>
    have hyield : guard.Bars "yield*" :=
      bars_keyword .yieldKeyword (by decide) rfl ⟨by rfl, by decide⟩
    exact (hyield.append _).shields
  | false =>
    cases argument with
    | none => exact shields_keyword .yieldKeyword (by decide)
    | some argument =>
      have hyield : guard.Bars "yield " :=
        bars_keyword .yieldKeyword (by decide) rfl ⟨by rfl, by decide⟩
      rw [optionalText, ← String.append_assoc]
      exact (hyield.append _).shields

/-- The guard of a place shields the text of an expression there: it goes along what stands at the
start, and where it meets a brace, a function or a class it encloses it. -/
theorem shields_expression [LawfulIdentifierChars version] (e : Expression) {p : Place}
    {place : Tree.Place} (h : Suits options place (.expression e)) (hslot : place.slot ≠ .name) :
    p.guard.Shields (expressionText style p e) := by
  obtain ⟨hvalue, hmember, hcalled⟩ : Slot.value ≠ .name ∧ Slot.object ≠ .name ∧
      Slot.callee ≠ .name := by decide
  rw [expressionText.eq_def]
  refine shields_parens fun hencloses => ?_
  have hrefuses := refuses_of_encloses hencloses
  rw [hencloses]
  -- What starts with a sign or a keyword is shielded by itself; what starts with a part has the
  -- guard of its place handed on to that part.
  cases e with
  | identifier id =>
    intro rest hrest
    refine avoids_reference h.here.spelling.1 (h.here.spelling.2 hslot) hrest fun hguard hlet => ?_
    simp [hguard, Guard.refuses, isLetName, hlet] at hrefuses
  | privateIdentifier id => exact (bars_sign (c := '#') (by simp) (by rfl) (by decide)).shields
  | literal lit => exact shields_literal h.here.spelling
  | thisKeyword span =>
    exact shields_keyword .thisKeyword (by decide)
  | superKeyword span =>
    exact shields_keyword .superKeyword (by decide)
  | array span elements =>
    exact (bars_sign (c := '[') (by simp [bracketed]) (by rfl) (by decide)).shields
  | object span members =>
    exact (bars_braces (braces_of_refuses hrefuses (.inl rfl)) (head_inlineBraces _)).shields
  | function value => exact (bars_function value _ (openings_of_function hrefuses rfl)).shields
  | arrow span isAsync params body => exact (((bars_arrow isAsync _).append _).append _).shields
  | blockArrow span isAsync params bodySpan body =>
    exact (((bars_arrow isAsync _).append _).append _).shields
  | classExpression value =>
    exact (bars_class style p value (openings_of_function hrefuses rfl)).shields
  | template span quasis expressions =>
    exact (bars_sign (c := '\x60') (by simp) (by rfl) (by decide)).shields
  | taggedTemplate span tag quasiSpan quasis expressions =>
    have htag := shields_expression tag (p := p.callee tag) (h.part List.mem_cons_self) hvalue
    rw [guard_callee] at htag
    dsimp only
    rw [String.append_assoc, String.append_assoc]
    exact htag.append (attaches_sign (c := '\x60') (by simp) (by decide))
  | member span object property computed optional =>
    have hobject := shields_expression object (p := p.object computed object)
      (h.part List.mem_cons_self) hmember
    rw [guard_object] at hobject
    exact shields_member hobject _ computed optional
  | call span callee arguments optional =>
    have hcallee := shields_expression callee (p := p.callee callee)
      (h.part List.mem_cons_self) hcalled
    rw [guard_callee] at hcallee
    dsimp only
    rw [String.append_assoc]
    refine hcallee.append ?_
    cases optional with
    | true => exact attaches_sign (c := '?') (by simp) (by decide)
    | false => exact attaches_sign (c := '(') (by simp [inParens]) (by decide)
  | newCall span callee arguments =>
    have hnew : p.guard.Bars "new " := bars_keyword .newKeyword (by decide) rfl ⟨by rfl, by decide⟩
    exact ((hnew.append _).append _).shields
  | chain span inner =>
    exact shields_expression inner (p := p.first .comma) (h.part List.mem_cons_self) hvalue
  | update span operator isBefore argument =>
    cases isBefore with
    | true =>
      have hsign : p.guard.Bars operator.text := by
        cases operator <;> exact bars_sign rfl (by rfl) (by decide)
      exact (hsign.append _).shields
    | false =>
      exact (shields_expression argument (p := p.first .leftHandSide) (h.part List.mem_cons_self)
        hvalue).append (attaches_update operator)
  | unary span operator argument => exact (bars_signed operator _).shields
  | binary span left operator right =>
    have hleft := shields_expression left (h.part List.mem_cons_self) hvalue
      (p := p.first (operandPrecedences operator (precedence (.binary span left operator right))).1)
    exact hleft.operation (isSpaced_binary operator) _
  | logical span left operator right =>
    have hleft := shields_expression left (h.part List.mem_cons_self) hvalue
      (p := (p.first (precedence (.logical span left operator right))).operand operator left)
    rw [guard_operand] at hleft
    exact hleft.operation (.inl (isSpaced_logical operator)) _
  | conditional span test consequent alternate =>
    have htest := shields_expression test (h.part List.mem_cons_self) hvalue
      (p := p.first .coalesce)
    dsimp only
    rw [String.append_assoc, String.append_assoc, String.append_assoc]
    exact htest.append (attaches_question _)
  | assignment span operator left right =>
    refine shields_target (p := p.first .leftHandSide) h.here.spelling operator _
      (fun _ _ hleft => ?_) (fun _ object _ computed _ hleft => ?_)
    · rw [hleft] at hrefuses
      exact braces_of_refuses hrefuses (.inr rfl)
    · subst hleft
      have hobject := shields_expression object
        (p := (p.first .leftHandSide).object computed object)
        ((h.part List.mem_cons_self).part List.mem_cons_self) hmember
      rwa [guard_object] at hobject
  | sequence span expressions =>
    refine shields_commaSeparated fun item hitem => ?_
    cases expressions with
    | nil => cases hitem
    | cons first others =>
      cases hitem
      exact shields_expression first (h.part List.mem_cons_self) hvalue (p := p.first .assignment)
  | yield span delegate argument => exact shields_yield delegate _ argument
  | await span argument =>
    have hawait : p.guard.Bars "await " :=
      bars_keyword .awaitKeyword (by decide) rfl ⟨by rfl, by decide⟩
    exact (hawait.append _).shields
  | importCall span source options =>
    have himport : p.guard.Bars "import(" :=
      bars_keyword .importKeyword (by decide) rfl ⟨by rfl, by decide⟩
    exact (((himport.append _).append _).append _).shields
  | metaProperty span object property =>
    have hpoint : p.guard.Bars (object.name ++ ".") := by
      rcases h.here.spelling with hobject | hobject
      · rw [hobject]
        exact bars_keyword .newKeyword (by decide) rfl ⟨by rfl, by decide⟩
      · rw [hobject]
        exact bars_keyword .importKeyword (by decide) rfl ⟨by rfl, by decide⟩
    exact (hpoint.append _).shields
  | parenthesized span inner => exact (bars_forced rfl).shields
  | markup value =>
    cases value with
    | element elementSpan opening name attributes selfClosing children closing =>
      exact (bars_sign (c := '<') (by simp [markupText]) (by rfl) (by decide)).shields
    | fragment fragmentSpan opening children closing =>
      exact (bars_sign (c := '<') (by simp [markupText]) (by rfl) (by decide)).shields
termination_by sizeOf e

end Expressions

section Programs

variable {options : Options} {text : String} {program : Program}

/-- What a program contains may stand at its place, with all that is below. -/
theorem suits_of_places (h : parse options text = .ok program) {place : Tree.Place} {n : Node}
    (hn : program.Places options.impliedStrict place n) : Suits options place n := by
  obtain ⟨s, hs, hpath⟩ := hn
  exact fun _ hinner => parse_fits h ⟨s, hs, hpath.trans hinner⟩

/-- A directive is written in quotation marks. -/
theorem bars_directive (guard : Guard) (directive : String) :
    guard.Bars (directiveText directive) := by
  unfold directiveText
  extract_lets mark
  have hmark : guard.Bars mark := by
    unfold mark
    split
    · exact bars_sign (c := '\'') rfl (by rfl) (by decide)
    · exact bars_sign (c := '"') rfl (by rfl) (by decide)
  exact ((hmark.append _).append _).append _

theorem Guard.Shields.avoids {guard : Guard} {text : String} (h : guard.Shields text) :
    guard.Avoids text.toList := by
  have hnil := h [] .nil
  rwa [List.append_nil] at hnil

/-- An expression that stands by itself below a node of the program. -/
theorem shields_part [LawfulIdentifierChars version] (h : parse options text = .ok program)
    {n : Node} (hn : program.Contains n)
    {e : Expression} (hpart : ∀ place : Tree.Place, ∃ part ∈ n.parts place,
      part.1.slot = .value ∧ part.2 = .expression e) (style : Style) (p : Place) :
    p.guard.Shields (expressionText style p e) := by
  obtain ⟨place, hplaces⟩ := Program.contains_iff_places.mp hn
  obtain ⟨⟨inner, m⟩, hmem, hslot, rfl⟩ := hpart place
  refine shields_expression e ((suits_of_places h hplaces).part hmem) ?_
  rw [hslot]
  decide

/-- In the text of a program, no expression statement starts with a brace, `function`,
`async function`, `class`, a decorator or `let` and a bracket; no body of an arrow function that
is an expression starts with a brace, and no default export that is one with `function`,
`async function`, `class` or a decorator. -/
theorem guards_complete [LawfulIdentifierChars version] (h : parse options text = .ok program)
    (style : Style) :
    (∀ span e directive, program.Contains (.statement (.expression span e directive)) →
      ∀ level, (directive = none → Guard.statement.Avoids
          (expressionText style (statementPlace level e) e).toList) ∧
        Guard.statement.Avoids (statementText style level (.expression span e directive)).toList) ∧
    (∀ span isAsync params body, program.Contains (.expression (.arrow span isAsync params body)) →
      ∀ p : Place, Guard.arrowBody.Avoids
        (expressionText style (p.deeper .assignment .arrowBody) body).toList) ∧
    ∀ span e, program.Contains (.statement (.exportDefault span e)) →
      ∀ level, Guard.exportDefault.Avoids
        (expressionText style (.guarded level .assignment .exportDefault) e).toList := by
  refine ⟨fun span e directive hn level => ?_, fun span isAsync params body hn p => ?_,
    fun span e hn level => ?_⟩
  · have htext := shields_part h hn (fun place => ⟨_, List.mem_cons_self, rfl, rfl⟩) style
      (statementPlace level e)
    refine ⟨fun _ => htext.avoids, ?_⟩
    cases directive with
    | some directive => exact (bars_directive .statement directive).shields.avoids
    | none =>
      have hend : Attaches ";" := attaches_sign (c := ';') rfl (by decide)
      exact (htext.append hend).avoids
  · exact (shields_part h hn (fun place => ⟨_, List.mem_cons_self, rfl, rfl⟩) style
      (p.deeper .assignment .arrowBody)).avoids
  · exact (shields_part h hn (fun place => ⟨_, List.mem_cons_self, rfl, rfl⟩) style
      (.guarded level .assignment .exportDefault)).avoids

/-- An assignment to a member of an object, of an arrow function to an object, and the member of a
class as the default export, with the text that is printed for them. -/
def printsEnclosed : Except Diagnostic.Failure Program → Bool
  | .ok program@⟨_, _, [.expression _ (.assignment _ .assign
        (.member _ (.object _ []) (.identifier _) false false)
        (.arrow _ false [] (.object _ []))) none,
      .exportDefault _ (.member _ (.classExpression ⟨_, none, none, _, [], []⟩) (.identifier _)
        false false)]⟩ =>
    print .standard program == "({}).a = () => ({});\nexport default (class {}).b;\n"
  | _ => false

end Programs

end

/-- Each of the three guards has a brace or a class to enclose, and nothing starts with it. -/
theorem guards_complete_enclosed :
    ∃ p, parse Options.asModule "({ }).a = () => ({ }); export default (class { }).b" = .ok p ∧
      print .standard p = "({}).a = () => ({});\nexport default (class {}).b;\n" ∧
      (∃ span e, p.Contains (.statement (.expression span e none)) ∧
        Guard.statement.Avoids (expressionText .standard (statementPlace 0 e) e).toList) ∧
      (∃ span body, p.Contains (.expression (.arrow span false [] body)) ∧
        Guard.arrowBody.Avoids (expressionText .standard
          ((Place.free 0 .comma).deeper .assignment .arrowBody) body).toList) ∧
      ∃ span e, p.Contains (.statement (.exportDefault span e)) ∧
        Guard.exportDefault.Avoids
          (expressionText .standard (.guarded 0 .assignment .exportDefault) e).toList := by
  obtain ⟨found, hfound, hshape⟩ : ∃ found, parse Options.asModule
      "({ }).a = () => ({ }); export default (class { }).b" = found ∧
        printsEnclosed found = true := ⟨_, rfl, by decide +kernel⟩
  unfold printsEnclosed at hshape
  split at hshape
  · obtain ⟨hstatement, hbody, hexport⟩ := guards_complete hfound .standard
    refine ⟨_, hfound, eq_of_beq hshape, ⟨_, _, ⟨_, List.mem_cons_self, .refl _⟩, ?_⟩,
      ⟨_, _, ⟨_, List.mem_cons_self, .step List.mem_cons_self
        (.step (List.mem_cons_of_mem _ List.mem_cons_self) (.refl _))⟩, ?_⟩,
      ⟨_, _, ⟨_, List.mem_cons_of_mem _ List.mem_cons_self, .refl _⟩, ?_⟩⟩
    · exact (hstatement _ _ _ ⟨_, List.mem_cons_self, .refl _⟩ 0).1 rfl
    · exact hbody _ _ _ _ ⟨_, List.mem_cons_self, .step List.mem_cons_self
        (.step (List.mem_cons_of_mem _ List.mem_cons_self) (.refl _))⟩ (Place.free 0 .comma)
    · exact hexport _ _ ⟨_, List.mem_cons_of_mem _ List.mem_cons_self, .refl _⟩ 0
  · cases hshape

end EcmaSyntax.Print
