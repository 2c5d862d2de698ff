import EcmaSyntax.Grammar.Program
import EcmaSyntax.Proofs.Cover.Statement
import EcmaSyntax.Unicode.IdentifierRanges

/-!
Object literals in the programs that texts spell. Every phrase of the grammar
settles the literals in it, by induction on how deep phrases are nested, so a
program has an object that is not plain only where a `new` with arguments is
applied to one.
-/

namespace EcmaSyntax.Grammar

open EcmaSyntax.Diagnostic EcmaSyntax.Tree

section

variable {version : Nat} [Unicode.IdentifierChars version]

namespace Phrases.Checks

variable {g : Phrases} (hg : g.Checks)

include hg

theorem statementBody (ctx : Context) (position : Position) :
    Reads .statement (statementBody g ctx position) := by
  intro s
  unfold Grammar.statementBody
  refine .skip fun start s => .skip fun token s => .skip fun escaped s => (stops_fail _).guard ?_
  split
  · refine (hg.block ctx .block s).bind fun r s hbody => .pure (.node trivial ?_)
    simpa [Node.children, Node.ofStatement] using hbody
  · refine .skip fun _ s => .skip fun span s => .pure (.node trivial ?_)
    simp [Node.children, Node.ofStatement]
  · exact hg.variableStatement ctx .varKind s
  · exact hg.ifStatement ctx start s
  · exact hg.forStatement ctx start s
  · exact hg.whileStatement ctx start s
  · exact hg.doWhileStatement ctx start s
  · exact jump ctx start true s
  · exact jump ctx start false s
  · exact hg.returnStatement ctx start s
  · exact hg.withStatement ctx start s
  · exact hg.switchStatement ctx start s
  · exact hg.throwStatement ctx start s
  · exact hg.tryStatement ctx start s
  · refine .skip fun _ s => .skip fun _ s => .skip fun span s => .pure (.node trivial ?_)
    simp [Node.children, Node.ofStatement]
  · exact hg.misplacedFunction ctx position s
  case h_17 | h_18 | h_19 => exact (stops_fail _).yields
  case h_20 | h_21 | h_22 =>
    refine .skip fun refused s => ?_
    split
    · exact (stops_fail _).yields
    · exact hg.expressionOrLabeled ctx start position s
  · exact hg.expressionOrLabeled ctx start position s

theorem statement_body (ctx : Context) (position : Position) :
    Reads .statement (Grammar.statement g ctx position) :=
  nested_reads (hg.statementBody ctx position)

theorem decoratedItem (ctx : Context) (start : Nat) :
    Reads .statement (decoratedItem g ctx start) := by
  intro s
  unfold Grammar.decoratedItem
  refine (hg.decorators ctx s).bind fun found s hfound => .skip fun token s => ?_
  split
  · exact hg.classStatement ctx start hfound s
  · split
    · exact hg.exportStatement ctx start hfound s
    · exact (stops_fail _).yields
  · exact (stops_fail _).yields

omit hg in
theorem topLevelItem (ctx : Context) (word : String) {phrase : Parser Statement}
    (h : Reads .statement phrase) : Reads .statement (topLevelItem ctx word phrase) :=
  fun s => (stops_fail _).guard (h s)

theorem listItem_body (ctx : Context) : Reads .statement (Grammar.listItem g ctx) := by
  intro s
  unfold Grammar.listItem
  refine .skip fun start s => .skip fun atFunction s => ?_
  split
  · exact functionStatement (nested_reads (hg.functionDeclaration ctx false true)) s
  refine .skip fun atAsync s => ?_
  split
  · exact functionStatement (nested_reads (hg.functionDeclaration ctx true true)) s
  refine .skip fun atClass s => ?_
  split
  · refine (nested_reads (hg.classDefinition ctx start true (by simp) false) s).bind
      fun c s hc => .pure (.node trivial ?_)
    simpa [Node.children, Node.ofStatement] using hc
  refine .skip fun atSign s => ?_
  split
  · exact hg.decoratedItem ctx start s
  refine .skip fun atConst s => ?_
  split
  · exact hg.variableStatement ctx .constKind s
  refine .skip fun atLet s => ?_
  split
  · exact hg.variableStatement ctx .letKind s
  refine .skip fun atImport s => ?_
  split
  · exact topLevelItem ctx "import" (importDeclaration ctx) s
  refine .skip fun atExport s => ?_
  split
  · exact topLevelItem ctx "export" (hg.exportStatement ctx start (by simp)) s
  exact hg.statement_body ctx .listItem s

theorem program (length : Nat) (s : State) :
    Yields (program g length) (fun p _ => ∀ x ∈ p.body, Checked false (.statement x)) s := by
  unfold Grammar.program
  refine .skip fun _ s => (hg.bodyStatements _ true .endOfSource s).bind fun r s hbody => ?_
  obtain ⟨body, ctx⟩ := r
  exact .skip fun _ s => .pure hbody

end Phrases.Checks

theorem phrases_checks (options : Options) (size fuel : Nat) :
    (phrases options size fuel).Checks := by
  induction fuel with
  | zero =>
    exact
      { assignmentCover := fun _ _ => (stops_fail _).yields
        unary := fun _ _ => (stops_fail _).yields
        binary := fun _ _ _ _ _ _ => (stops_fail _).yields
        newCall := fun _ _ => (stops_fail _).yields
        leftHandSide := fun _ _ => (stops_fail _).yields
        markup := fun _ _ _ => (stops_fail _).yields
        bindingTarget := fun _ _ _ => (stops_fail _).yields
        statement := fun _ _ _ => (stops_fail _).yields
        listItem := fun _ _ => (stops_fail _).yields }
  | succ fuel ih =>
    exact
      { assignmentCover := ih.assignmentCover_body
        unary := ih.unary_body
        binary := ih.binary_body
        newCall := ih.newCall_body
        leftHandSide := ih.leftHandSide_body
        markup := ih.markup_body
        bindingTarget := ih.bindingTarget_body
        statement := ih.statement_body
        listItem := ih.listItem_body }

theorem parse_checked {options : Options} {text : String} {p : Program}
    (h : parse options text = .ok p) : ∀ x ∈ p.body, Checked false (.statement x) := by
  unfold parse run at h
  split at h
  · rename_i q s hok
    cases h
    exact ((phrases_checks options _ _).program _ _).result hok
  · cases h

/-- Every object in the program is plain if, and only if, a `new` with
arguments is never applied to a literal with an object in it that is not. -/
theorem plain_objects_iff_plain_callees {options : Options} {text : String} {p : Program}
    (h : parse options text = .ok p) :
    (∀ span members, p.Contains (.expression (.object span members)) → PlainMembers members) ↔
      ∀ span callee arguments, p.Contains (.expression (.newCall span callee arguments)) →
        arguments ≠ [] → ∀ inner members,
          LiteralPart (.expression callee) (.expression (.object inner members)) →
            PlainMembers members := by
  constructor
  · rintro hall span callee arguments ⟨x, hx, hwithin⟩ - inner members hpart
    have hcallee : Node.Within (.expression (.newCall span callee arguments))
        (.expression callee) := .step (by simp [Node.children, Node.ofExpression]) (.refl _)
    exact hall inner members ⟨x, hx, (hwithin.trans hcallee).trans hpart.within⟩
  · rintro hcallees span members ⟨x, hx, hwithin⟩
    have hplain : Node.Every CalleeIsPlain (.statement x) := by
      intro m hm
      cases m with
      | expression e =>
        cases e with
        | newCall span callee arguments =>
          intro hne k hk
          cases k with
          | expression e =>
            cases e with
            | object inner members => exact hcallees span callee arguments ⟨x, hx, hm⟩ hne _ _ hk
            | _ => trivial
          | _ => trivial
        | _ => trivial
      | _ => trivial
    exact (parse_checked h x hx).every_isPlain hplain (by simp) _ hwithin

theorem exists_ok_of_isOk (options : Options) (text : String)
    (h : (parse options text).isOk = true) : ∃ p, parse options text = .ok p := by
  cases hparse : parse options text with
  | ok p => exact ⟨p, rfl⟩
  | error failure =>
    rw [hparse] at h
    cases h

end

/-- Literals with an initializer that become a pattern and a parameter list, next
to a `new` that is applied to a plain one. -/
theorem plain_objects_iff_plain_callees_mixed :
    ∃ p, parse Options.script "[{a = 1}] = ({b = 2}, c) => new {d: 3}(e)" = .ok p ∧
      ((∀ span members, p.Contains (.expression (.object span members)) →
          PlainMembers members) ↔
        ∀ span callee arguments, p.Contains (.expression (.newCall span callee arguments)) →
          arguments ≠ [] → ∀ inner members,
            LiteralPart (.expression callee) (.expression (.object inner members)) →
              PlainMembers members) := by
  obtain ⟨p, hp⟩ := exists_ok_of_isOk Options.script
    "[{a = 1}] = ({b = 2}, c) => new {d: 3}(e)" (by decide +kernel)
  exact ⟨p, hp, plain_objects_iff_plain_callees hp⟩

/-- An object that a `new` with arguments is applied to. -/
def newCallee? : Except Failure Program → Option (List ObjectMember)
  | .ok ⟨_, _, [.expression _ (.newCall _ (.object _ members) _) _]⟩ => some members
  | _ => none

/-- The arguments of a `new` forget what its callee left open. -/
theorem exists_object_not_plain :
    ∃ p span members, parse Options.script "new {a = 1}(b)" = .ok p ∧
      p.Contains (.expression (.object span members)) ∧ ¬ PlainMembers members := by
  have hbad : ((newCallee? (parse Options.script "new {a = 1}(b)")).any
      (·.any hasInitializer)) = true := by decide +kernel
  cases hparse : parse Options.script "new {a = 1}(b)" with
  | error failure =>
    rw [hparse] at hbad
    cases hbad
  | ok p =>
    rw [hparse] at hbad
    unfold newCallee? at hbad
    split at hbad
    · rename_i programSpan isModule span newSpan objectSpan members args directive heq
      cases heq
      refine ⟨_, objectSpan, members, rfl, ⟨_, List.mem_singleton_self _, ?_⟩, fun hplain => ?_⟩
      · exact .step (List.mem_singleton_self _) (.step List.mem_cons_self (.refl _))
      · obtain ⟨m, hm, hinit⟩ := List.any_eq_true.mp hbad
        simp [hplain.noInitializer m hm] at hinit
    · cases hbad

end EcmaSyntax.Grammar
