import EcmaSyntax.Grammar.Markup
import EcmaSyntax.Proofs.Cover.Phrases
import EcmaSyntax.Grammar.Primary
import EcmaSyntax.Proofs.Cover.Class

/-!
Primary expressions. Array and object literals are the only ones that leave something open, and
the cover state says what; a group in parentheses is either checked or turned into parameters. The
expressions in the braces of markup are read as whole expressions.
-/

namespace EcmaSyntax.Grammar

open EcmaSyntax.Tree

variable {version : Nat} [Unicode.IdentifierChars version]

theorem Reads.pending {step : Parser Expression} (h : Reads .expression step) :
    ReadsPending step :=
  fun s => (h s).mono fun _ _ he => he.pending

/-- The body of an arrow function is settled. -/
def ArrowBody.Settled : ArrowBody → Prop
  | .concise e => Checked false (.expression e)
  | .block _ body _ => ∀ x ∈ body, Checked false (.statement x)

/-- The item of a group has the cover state that was noted with it. -/
def GroupItem.IsPending (item : GroupItem) : Prop := Pending item.expression item.cover

theorem groupExpression_checked {first : Expression} {rest : List Expression}
    (hfirst : Checked false (.expression first))
    (hrest : ∀ e ∈ rest, Checked false (.expression e)) :
    Checked false (.expression (groupExpression first rest)) := by
  unfold groupExpression
  split
  · exact hfirst
  · exact .node trivial (by simpa [Node.children, Node.ofExpression] using ⟨hfirst, hrest⟩)

theorem groupParameter_checked {c : Conversion} {item : GroupItem} {p : Pattern}
    (h : groupParameter c item = .ok p) (hitem : item.IsPending) :
    Checked false (.pattern p) := by
  unfold groupParameter at h
  split at h
  · exact toRestPattern_checked h hitem.parts
  · exact toPattern_checked _ h hitem.parts

theorem groupParameters_checked {c : Conversion} :
    ∀ (items : List GroupItem) {ps : List Pattern}, items.mapM (groupParameter c) = .ok ps →
      (∀ item ∈ items, item.IsPending) → ∀ p ∈ ps, Checked false (.pattern p)
  | [], ps, h, _ => by
    cases h
    simp
  | item :: rest, ps, h, hitems => by
    rw [List.mapM_cons] at h
    obtain ⟨q, hq, h⟩ := except_bind_ok h
    obtain ⟨qs, hqs, hp⟩ := except_bind_ok h
    cases hp
    rw [List.forall_mem_cons] at hitems ⊢
    exact ⟨groupParameter_checked hq hitems.1, groupParameters_checked rest hqs hitems.2⟩

namespace Phrases.Checks

variable {g : Phrases} (hg : g.Checks)

include hg

theorem attributeValue (ctx : Context) : Reads .markupValue (attributeValue g ctx) := by
  intro s
  unfold Grammar.attributeValue
  refine .skip fun start s => .skip fun token s => ?_
  split
  · refine .skip fun _ s => .skip fun value s => .skip fun raw s => .skip fun _ s => .pure ?_
    exact .node trivial (by simp [Node.children])
  · refine .skip fun _ s => .skip fun atBrace s => (stops_failAt _ _).guard ?_
    refine (hg.assignment ctx.withIn s).bind fun e s he => ?_
    refine .skip fun _ s => .skip fun span s => .skip fun _ s => .pure ?_
    exact .node trivial (by simpa [Node.children] using he)
  · refine (hg.markup ctx .attribute s).bind fun m s hm => .pure ?_
    exact .node trivial (by simpa [Node.children] using hm)
  · exact stops_unexpected.yields

theorem namedAttribute (ctx : Context) : Reads .markupAttribute (namedAttribute g ctx) := by
  intro s
  unfold Grammar.namedAttribute
  refine .skip fun start s => .skip fun first s => .skip fun atColon s => ?_
  extract_lets rest
  have hrest : ∀ name s, Yields (rest name) (fun x _ => Checked false (.markupAttribute x)) s := by
    intro name s
    refine .skip fun atSign s => ?_
    extract_lets last
    have hlast : ∀ value s, Checked false (.markupValue value) →
        Yields (last value) (fun x _ => Checked false (.markupAttribute x)) s := by
      intro value s hvalue
      exact .skip fun span s => .pure (.node trivial (by simpa [Node.children] using hvalue))
    split
    · exact .skip fun _ s => (hg.attributeValue ctx s).bind hlast
    · exact .run rfl (hlast .absent s (.node trivial (by simp [Node.children])))
  split
  · exact .skip fun _ s => .skip fun name s => .skip fun span s => .skip hrest
  · exact .skip hrest

theorem spreadAttribute (ctx : Context) :
    Reads .markupAttribute (spreadAttribute g ctx) := by
  intro s
  unfold Grammar.spreadAttribute
  refine .skip fun start s => .skip fun _ s => .skip fun _ s => ?_
  refine (hg.assignment ctx.withIn s).bind fun e s he => ?_
  refine .skip fun _ s => .skip fun span s => .skip fun _ s => .pure ?_
  exact .node trivial (by simpa [Node.children] using he)

theorem attributes (ctx : Context) : ReadsAll .markupAttribute (attributes g ctx) := by
  intro s
  refine collect_yields (fun earlier s _ => .skip fun token s => ?_) s
  split
  · exact .pure trivial
  · exact .pure trivial
  · exact (hg.spreadAttribute ctx s).bind fun x s hx => .pure hx
  · exact (stops_fail _).yields
  · split
    · exact (hg.namedAttribute ctx s).bind fun x s hx => .pure hx
    · exact stops_unexpected.yields

theorem childExpression (ctx : Context) : Reads .markupChild (childExpression g ctx) := by
  intro s
  unfold Grammar.childExpression
  refine .skip fun state s => .skip fun _ s => .skip fun isSpread s => ?_
  split
  · refine (hg.expression ctx.withIn s).bind fun e s he => ?_
    refine .skip fun _ s => .skip fun whole s => .skip fun _ s => .pure ?_
    exact .node trivial (by simpa [Node.children] using he)
  · refine .skip fun isEmpty s => ?_
    split
    · refine .skip fun stop s => .skip fun whole s => .skip fun _ s => .pure ?_
      exact .node trivial (by simp [Node.children])
    · refine (hg.expression ctx.withIn s).bind fun e s he => ?_
      refine .skip fun _ s => .skip fun whole s => .skip fun _ s => .pure ?_
      exact .node trivial (by simpa [Node.children] using he)

theorem children (ctx : Context) : ReadsAll .markupChild (children g ctx) := by
  intro s
  refine collect_yields (fun earlier s _ => .skip fun token s => ?_) s
  split
  · refine .skip fun state s => .skip fun value s => .skip fun raw s => .skip fun _ s => .pure ?_
    exact .node trivial (by simp [Node.children])
  · exact (hg.childExpression ctx s).bind fun x s hx => .pure hx
  · refine .skip fun following s => ?_
    split
    · exact .pure trivial
    · refine (hg.markup ctx .child s).bind fun m s hm => .pure ?_
      exact .node trivial (by simpa [Node.children] using hm)
  · exact (stops_fail _).yields
  · exact stops_unexpected.yields

theorem fragmentFrom (ctx : Context) (exit : MarkupExit) (start : Nat) :
    Reads .markup (fragmentFrom g ctx exit start) := by
  intro s
  unfold Grammar.fragmentFrom
  refine .skip fun openingSpan s => .skip fun _ s => ?_
  refine (hg.children ctx s).bind fun found s hfound => ?_
  refine .skip fun closingStart s => .skip fun _ s => .skip fun _ s => .skip fun atEnd s => ?_
  refine (stops_fail _).guard ?_
  refine .skip fun closingSpan s => .skip fun _ s => .skip fun span s => .pure ?_
  exact .node trivial (by simpa [Node.children] using hfound)

theorem markupElement (ctx : Context) (exit : MarkupExit) (start : Nat) :
    Reads .markup (markupElement g ctx exit start) := by
  intro s
  unfold Grammar.markupElement
  refine .skip fun name s => (hg.attributes ctx s).bind fun found s hfound => ?_
  refine .skip fun selfClosing s => ?_
  extract_lets opened rest
  have hrest : ∀ u s, Yields (rest u) (fun m _ => Checked false (.markup m)) s := by
    intro u s
    refine .skip fun atEnd s => stops_unexpected.guard ?_
    refine .skip fun openingSpan s => ?_
    split
    · refine .skip fun _ s => .skip fun span s => .pure ?_
      exact .node trivial (by simpa [Node.children] using hfound)
    · refine .skip fun _ s => (hg.children ctx s).bind fun contents s hcontents => ?_
      refine .skip fun closing s => .skip fun _ s => .skip fun span s => .pure (.node trivial ?_)
      intro c hc
      rcases List.mem_append.mp hc with hc | hc
      · obtain ⟨x, hx, rfl⟩ := List.mem_map.mp hc
        exact hfound x hx
      · obtain ⟨x, hx, rfl⟩ := List.mem_map.mp hc
        exact hcontents x hx
  split
  · exact .skip hrest
  · exact hrest () s

theorem markup_body (ctx : Context) (exit : MarkupExit) :
    Reads .markup (Grammar.markup g ctx exit) := by
  refine nested_reads fun s => .skip fun start s => .skip fun _ s => .skip fun isFragment s => ?_
  split
  · exact hg.fragmentFrom ctx exit start s
  · exact hg.markupElement ctx exit start s

theorem markupExpression (ctx : Context) : Reads .expression (markupExpression g ctx) := by
  intro s
  unfold Grammar.markupExpression
  refine (hg.markup_body ctx .expression s).bind fun m s hm => ?_
  refine .skip fun atLess s => (stops_fail _).guard (.skip fun _ s => .pure ?_)
  exact .node trivial (by simpa [Node.children, Node.ofExpression] using hm)

theorem arrayLiteral (ctx : Context) : ReadsPending (arrayLiteral g ctx) := by
  intro s
  unfold Grammar.arrayLiteral
  refine .skip fun start s => .skip fun _ s => ?_
  refine (collect_yields (P := ElementPending) (fun earlier s _ => ?_) s).bind
    fun found s hfound => ?_
  · refine .skip fun atClose s => ?_
    split
    · exact .pure trivial
    · refine .skip fun isHole s => ?_
      split
      · exact .pure (elementPending_hole _)
      · refine .skip fun start s => .skip fun isSpread s => ?_
        refine (hg.covered ctx.withIn s).bind fun r s hr => ?_
        refine (elementFrom_yields start isSpread hr s).bind fun x s hx => ?_
        exact .skip fun _ s => .pure hx
  · refine .skip fun _ s => .skip fun _ s => .run rfl (.run rfl (.pure ?_))
    exact pending_array hfound _

theorem shorthandProperty (ctx : Context) (start keyStart : Nat) (id : Identifier) (s : State) :
    Yields (shorthandProperty g ctx start keyStart id) (fun x _ => MemberPending x) s := by
  have hname := checked_name id
  unfold Grammar.shorthandProperty
  refine .skip fun _ s => .skip fun _ s => .skip fun hasValue s => ?_
  split
  · refine (hg.assignment ctx s).bind fun right s hright => ?_
    refine .skip fun valueSpan s => .skip fun span s => .pure ⟨.property hname ?_, ?_⟩
    · refine .node trivial ?_
      simpa [Node.children, Node.ofExpression] using ⟨checked_identifier id, hright⟩
    · simp [Cover.none]
  · refine .skip fun span s => .pure ⟨.property hname hname.weaken, fun _ => ⟨?_, rfl⟩⟩
    exact .node trivial (by simpa [Node.children] using hname)

theorem objectProperty (ctx : Context) (s : State) :
    Yields (objectProperty g ctx) (fun x _ => MemberPending x) s := by
  unfold Grammar.objectProperty
  refine .skip fun start s => .skip fun head s => .skip fun keyToken s => .skip fun keyStart s => ?_
  refine (hg.propertyKey ctx false s).bind fun r s hkey => ?_
  obtain ⟨key, computed⟩ := r
  refine .skip fun atParen s => ?_
  split
  · refine (hg.methodFunction ctx _ _ _ s).bind fun value s hvalue => ?_
    have hfunction : Checked false (.expression (.function value)) :=
      .node trivial (by simpa [Node.children, Node.ofExpression] using hvalue)
    refine .skip fun span s => .pure ⟨.property hkey hfunction.weaken, fun _ => ⟨?_, rfl⟩⟩
    exact .node trivial (by simpa [Node.children] using ⟨hkey, hfunction⟩)
  · refine .skip fun hasValue s => ?_
    split
    · refine (hg.covered ctx s).bind fun r s hvalue => ?_
      obtain ⟨value, cover⟩ := r
      refine .skip fun span s => .pure ⟨.property hkey hvalue.parts, fun hcover => ⟨?_, ?_⟩⟩
      · have hsettled := hvalue.settled hcover
        exact .node trivial (by simpa [Node.children] using ⟨hkey, hsettled⟩)
      · cases value <;> rfl
    · split
      · split
        · exact hg.shorthandProperty ctx start keyStart _ s
        · exact stops_unexpected.yields
      · exact stops_unexpected.yields

theorem objectMember (ctx : Context) (s : State) :
    Yields (objectMember g ctx) (fun x _ => MemberPending x) s := by
  unfold Grammar.objectMember
  refine .skip fun start s => .skip fun isSpread s => ?_
  split
  · refine (hg.covered ctx s).bind fun r s he => ?_
    obtain ⟨e, cover⟩ := r
    refine .skip fun _ s => .skip fun span s => .pure ⟨.spread he.parts, fun hcover => ⟨?_, rfl⟩⟩
    exact .node trivial (by simpa [Node.children] using he.settled hcover)
  · exact hg.objectProperty ctx s

theorem objectLiteral (ctx : Context) : ReadsPending (objectLiteral g ctx) := by
  intro s
  unfold Grammar.objectLiteral
  refine .skip fun start s => .skip fun _ s => ?_
  refine (listed_yields .rightBrace (fun earlier s => hg.objectMember ctx.withIn s) s).bind
    fun found s hfound => ?_
  refine .skip fun _ s => .skip fun _ s => .run rfl (.run rfl (.pure ?_))
  exact pending_object hfound _

theorem arrowBody (ctx inner : Context) (simple : Bool) (s : State) :
    Yields (arrowBody g ctx inner simple) (fun body _ => body.Settled) s := by
  unfold Grammar.arrowBody
  refine .skip fun start s => .skip fun isBlock s => ?_
  split
  · refine (inScope_reads (Q := fun r => ∀ x ∈ r.1, Checked false (.statement x)) _
      (fun s => ?_) s).bind fun r s hbody => ?_
    · refine (hg.bodyStatements inner simple .rightBrace s).bind fun r s hr => ?_
      exact .skip fun _ s => .pure hr
    · exact .skip fun span s => .pure hbody
  · exact (hg.assignment _ s).bind fun e s he => .pure he

theorem arrowFunction (ctx : Context) (start : Nat) {params : List Pattern}
    (hparams : ∀ p ∈ params, Checked false (.pattern p)) (isAsync : Bool) :
    Reads .expression (arrowFunction g ctx start params isAsync) := by
  intro s
  unfold Grammar.arrowFunction
  refine .skip fun _ s => ?_
  refine (inScope_reads (Q := ArrowBody.Settled) _ (fun s => ?_) s).bind fun body s hbody => ?_
  · refine .skip fun _ s => .skip fun state s => .skip fun _ s => ?_
    refine (asFunction_yields (hg.arrowBody ctx _ _) s).bind fun body s hbody => ?_
    extract_lets strict
    split
    · exact .skip fun _ s => .pure hbody
    · exact .pure hbody
  · refine .skip fun _ s => .skip fun span s => ?_
    split
    · refine .pure (.node trivial ?_)
      simpa [Node.children, Node.ofExpression, ArrowBody.Settled, or_imp, forall_and] using
        And.intro hbody hparams
    · refine .pure (.node trivial ?_)
      simpa [Node.children, Node.ofExpression, ArrowBody.Settled, or_imp, forall_and] using
        And.intro hparams hbody

theorem groupItem (ctx : Context) (s : State) :
    Yields (groupItem g ctx) (fun r _ => r.Adds GroupItem.IsPending) s := by
  unfold Grammar.groupItem
  refine .skip fun atClose s => ?_
  split
  · exact .pure trivial
  · refine .skip fun start s => .skip fun isRest s => ?_
    split
    · refine (hg.covered ctx s).bind fun r s hr => .skip fun atComma s => ?_
      split
      · refine .skip fun comma s => .skip fun _ s => .skip fun atParen s => ?_
        split
        · exact (stops_failAt _ _).bind
        · exact (stops_failAt _ _).bind
      · exact .pure hr
    · refine (hg.covered ctx s).bind fun r s hr => .skip fun atClose s => ?_
      split
      · exact .pure hr
      · exact .skip fun _ s => .pure hr

theorem groupArrow (ctx : Context) (start : Nat) {items : List GroupItem}
    (hitems : ∀ item ∈ items, item.IsPending) :
    Reads .expression (groupArrow g ctx start items) := by
  intro s
  unfold Grammar.groupArrow
  refine .skip fun _ s => .skip fun state s => .skip fun _ s => .skip fun state s => ?_
  refine .skip fun _ s => .skip fun c s => (ofExcept_yields s).bind fun params s hok => ?_
  exact hg.arrowFunction ctx start (groupParameters_checked items hok hitems) false s

omit hg in
theorem groupValue (start close : Nat) {items : List GroupItem}
    (hitems : ∀ item ∈ items, item.IsPending) :
    Reads .expression (groupValue g start close items) := by
  intro s
  unfold Grammar.groupValue
  extract_lets rest
  have hrest : ∀ u s, Yields (rest u) (fun e _ => Checked false (.expression e)) s := by
    intro u s
    cases items with
    | nil => exact (stops_failAt _ _).yields
    | cons first others =>
      refine (stops_failAt _ _).guard ?_
      refine (checkCovers_yields _ _ s).bind fun _ s hcover => ?_
      have hsettled : ∀ item ∈ first :: others, Checked false (.expression item.expression) :=
        fun item hitem => (hitems item hitem).settled
          (Cover.unionAll_eq_none.mp hcover _ (List.mem_map_of_mem hitem))
      rw [List.forall_mem_cons] at hsettled
      have he := groupExpression_checked hsettled.1
        (List.forall_mem_map.mpr hsettled.2)
      refine .skip fun _ s => ?_
      split
      · refine .skip fun span s => .pure (.node trivial ?_)
        simpa [Node.children, Node.ofExpression] using he
      · exact .skip fun _ s => .pure he
  split
  · exact (stops_failAt _ _).bind
  · exact hrest () s

theorem parenGroup (ctx : Context) (start : Nat) (canArrow : Bool) :
    Reads .expression (parenGroup g ctx start canArrow) := by
  intro s
  unfold Grammar.parenGroup
  refine .skip fun _ s => ?_
  refine (collect_yields (fun earlier s _ => hg.groupItem ctx.withIn s) s).bind
    fun items s hitems => .skip fun close s => .skip fun _ s => .skip fun atArrow s => ?_
  split
  · exact hg.groupArrow ctx start hitems s
  · exact groupValue start close hitems s

theorem asyncNameArrow (ctx : Context) (start : Nat) :
    Reads .expression (asyncNameArrow g ctx start) := by
  intro s
  unfold Grammar.asyncNameArrow
  refine .skip fun _ s => .skip fun id s => .skip fun atArrow s => stops_unexpected.guard ?_
  refine .skip fun _ s => .skip fun _ s => ?_
  exact hg.arrowFunction ctx start (by simpa using checked_identifier id) true s

theorem asyncCallOrArrow (ctx : Context) (start : Nat) (canArrow : Bool) :
    Reads .expression (asyncCallOrArrow g ctx start canArrow) := by
  intro s
  unfold Grammar.asyncCallOrArrow
  refine .skip fun callee s => .skip fun lineBreak s => ?_
  refine (hg.coveredArguments ctx s).bind fun found s hfound => .skip fun atArrow s => ?_
  split
  · refine .skip fun _ s => .skip fun state s => .skip fun _ s => .skip fun state s => ?_
    refine .skip fun _ s => .skip fun state s => .skip fun _ s => .skip fun c s => ?_
    refine (ofExcept_yields s).bind fun params s hok => ?_
    refine hg.arrowFunction ctx start (toPatterns_checked _ hok fun x hx => ?_) true s
    obtain ⟨y, hy, rfl⟩ := List.mem_map.mp hx
    exact (hfound y hy).1
  · refine (checkCovers_yields _ _ s).bind fun _ s hcover => ?_
    refine .skip fun _ s => .skip fun span s => .pure ?_
    refine checked_call (checked_name callee) (fun x hx => ?_) span false
    obtain ⟨y, hy, rfl⟩ := List.mem_map.mp hx
    exact (hfound y hy).2 (Cover.unionAll_eq_none.mp hcover _ (List.mem_map_of_mem hy))

theorem plainName (ctx : Context) (start : Nat) (canArrow : Bool) :
    Reads .expression (plainName g ctx start canArrow) := by
  intro s
  unfold Grammar.plainName
  refine .skip fun id s => .skip fun atArrow s => ?_
  split
  · refine .skip fun _ s => .skip fun _ s => ?_
    exact hg.arrowFunction ctx start (by simpa using checked_identifier id) false s
  · exact .skip fun _ s => .skip fun _ s => .skip fun _ s => .pure (checked_name id)

theorem namePrimary (ctx : Context) (start : Nat) (canArrow : Bool) :
    Reads .expression (namePrimary g ctx start canArrow) := by
  intro s
  unfold Grammar.namePrimary
  refine .skip fun isAsync s => ?_
  split
  · refine .skip fun following s => ?_
    obtain ⟨token, flags⟩ := following
    dsimp only
    split
    · exact hg.functionExpression ctx start true s
    · refine .skip fun isLoop s => ?_
      split
      · exact hg.asyncNameArrow ctx start s
      · split
        · exact hg.asyncCallOrArrow ctx start canArrow s
        · exact hg.plainName ctx start canArrow s
  · exact hg.plainName ctx start canArrow s

theorem otherPrimary (ctx : Context) (start : Nat) (canArrow : Bool) :
    ReadsPending (otherPrimary g ctx start canArrow) := by
  have hliteral : ∀ lit (s : State), Yields (pure (.literal lit))
      (fun e s' => Pending e s'.cover) s := fun lit s =>
    .pure (Checked.pending (.node trivial (by simp [Node.children, Node.ofExpression])))
  have hclass : ∀ found, (∀ d ∈ found, Checked false (.decorator d)) →
      ReadsPending (do
        return .classExpression (← Grammar.classDefinition g ctx start false found false)) := by
    intro found hfound s
    refine (hg.classDefinition ctx start false hfound false s).bind fun c s hc => .pure ?_
    exact Checked.pending (.node trivial (by simpa [Node.children, Node.ofExpression] using hc))
  intro s
  unfold Grammar.otherPrimary
  refine .skip fun token s => ?_
  split
  · exact .skip hliteral
  · exact .skip hliteral
  · exact .skip hliteral
  · exact .skip hliteral
  · exact .skip hliteral
  · exact .skip hliteral
  · exact .skip hliteral
  · exact .skip hliteral
  · refine .skip fun _ s => .skip fun span s => .pure (Checked.pending ?_)
    exact .node trivial (by simp [Node.children, Node.ofExpression])
  · refine (hg.template ctx false s).bind fun parts s hparts => .pure (Checked.pending ?_)
    exact .node trivial (by simpa [Node.children, Node.ofExpression] using hparts)
  · refine (hg.template ctx false s).bind fun parts s hparts => .pure (Checked.pending ?_)
    exact .node trivial (by simpa [Node.children, Node.ofExpression] using hparts)
  · exact hg.arrayLiteral ctx s
  · exact hg.objectLiteral ctx s
  · exact (hg.parenGroup ctx start canArrow).pending s
  · exact (hg.functionExpression ctx start false).pending s
  · exact hclass [] (by simp) s
  · split
    · refine (hg.decorators ctx s).bind fun found s hfound => .skip fun atClass s => ?_
      exact (stops_fail _).guard (hclass found hfound s)
    · exact stops_unexpected.yields
  · split
    · exact (hg.markupExpression ctx).pending s
    · exact stops_unexpected.yields
  · refine .skip fun following s => ?_
    split
    · refine .skip fun id s => .pure (Checked.pending ?_)
      exact .node trivial (by simp [Node.children, Node.ofExpression])
    · exact (stops_fail _).yields
  · exact stops_unexpected.yields

theorem primary (ctx : Context) : ReadsPending (primary g ctx) := by
  intro s
  unfold Grammar.primary
  refine .skip fun start s => .skip fun state s => .skip fun _ s => .skip fun token s => ?_
  split
  · exact (hg.namePrimary ctx start _).pending s
  · refine .skip fun escaped s => ?_
    split
    · exact (stops_fail _).yields
    · exact hg.otherPrimary ctx start _ s

end Phrases.Checks

end EcmaSyntax.Grammar
