import EcmaSyntax.Grammar.Binding
import EcmaSyntax.Grammar.Phrases
import EcmaSyntax.Proofs.Cover.Form

/-!
The phrases that contain each other, with what each leaves behind: an
expression as the cover state says, anything else settled. Here are the
phrases made directly of them: sequences, templates, property names, arguments
and binding patterns.
-/

namespace EcmaSyntax.Grammar

open EcmaSyntax.Scope EcmaSyntax.Tree

variable {version : Nat} [Unicode.IdentifierChars version]

variable {α : Type}

/-- The step reads an expression and leaves its cover state. -/
def ReadsPending (step : Parser Expression) : Prop :=
  ∀ s, Yields step (fun e s' => Pending e s'.cover) s

/-- The step reads something that is settled. -/
def Reads (node : α → Node) (step : Parser α) : Prop :=
  ∀ s, Yields step (fun a _ => Checked false (node a)) s

def ReadsAll (node : α → Node) (step : Parser (List α)) : Prop :=
  ∀ s, Yields step (fun as _ => ∀ a ∈ as, Checked false (node a)) s

structure Phrases.Checks (g : Phrases) : Prop where
  assignmentCover : ∀ ctx, ReadsPending (g.assignmentCover ctx)
  unary : ∀ ctx, ReadsPending (g.unary ctx)
  binary : ∀ ctx start left minimum s, Pending left s.cover →
    Yields (g.binary ctx start left minimum) (fun r s' => Pending r.1 s'.cover) s
  newCall : ∀ ctx, ReadsPending (g.newCall ctx)
  leftHandSide : ∀ ctx, ReadsPending (g.leftHandSide ctx)
  markup : ∀ ctx exit, Reads .markup (g.markup ctx exit)
  bindingTarget : ∀ ctx kind, Reads .pattern (g.bindingTarget ctx kind)
  statement : ∀ ctx position, Reads .statement (g.statement ctx position)
  listItem : ∀ ctx, Reads .statement (g.listItem ctx)

theorem ofOption_checked {e : Option Expression}
    (h : ∀ x, e = some x → Checked false (.expression x)) :
    ∀ c ∈ Node.ofOption e, Checked false c := by
  cases e with
  | none => simp [Node.ofOption]
  | some x => simpa [Node.ofOption] using h x rfl

/-- A phrase that is there, where it may be missing. -/
theorem Reads.optional {node : α → Node} {step : Parser α} (h : Reads node step) (s : State) :
    Yields (some <$> step) (fun found _ => ∀ a, found = some a → Checked false (node a)) s :=
  .map ((h s).mono fun a _ ha b hb => by
    obtain rfl : a = b := by simpa using hb
    exact ha)

theorem nested_pending {phrase : Parser Expression} (h : ReadsPending phrase) :
    ReadsPending (nested phrase) := fun _ =>
  nested_yields (P := fun _ => True) (fun _ _ hs => hs) (fun _ _ _ ha => ha) (fun s _ => h s)
    trivial

theorem nested_reads {node : α → Node} {phrase : Parser α} (h : Reads node phrase) :
    Reads node (nested phrase) := fun _ =>
  nested_yields (P := fun _ => True) (fun _ _ hs => hs) (fun _ _ _ ha => ha) (fun s _ => h s)
    trivial

theorem inScope_reads {Q : α → Prop} {phrase : Parser α} (roles : List Role)
    (h : ∀ s, Yields phrase (fun a _ => Q a) s) (s : State) :
    Yields (inScope roles phrase) (fun a _ => Q a) s := by
  unfold inScope
  exact .skip fun _ s => (h s).bind fun a s ha => .skip fun _ s => .pure ha

theorem next_cover (s : State) : Yields next (fun _ s' => s'.cover = s.cover) s :=
  (next_frame s).mono fun _ _ hs => by
    obtain ⟨lexer, observations, stop, rfl⟩ := hs
    rfl

theorem expect_cover (token : Token) (s : State) :
    Yields (expect token) (fun _ s' => s'.cover = s.cover) s := by
  unfold expect
  refine .run rfl ?_
  split
  · exact next_cover s
  · refine .run rfl ?_
    split
    · exact (stops_fail _).yields
    · exact (stops_fail _).yields

/-- An element keeps the cover state of its expression. -/
theorem elementFrom_yields (start : Nat) (isSpread : Bool) {e : Expression} {cover : Cover}
    (h : Pending e cover) (s : State) :
    Yields (elementFrom start isSpread e) (fun x _ => ElementPending (x, cover)) s := by
  unfold elementFrom
  split
  · exact .skip fun _ s => .skip fun span s => .pure (h.spread span)
  · exact .pure h.item

namespace Phrases.Checks

variable {g : Phrases} (hg : g.Checks)

include hg

theorem assignment (ctx : Context) : Reads .expression (g.assignment ctx) := by
  intro s
  refine (hg.assignmentCover ctx s).bind fun e s he => ?_
  exact (checkCover_yields he).bind fun _ s hchecked => .pure hchecked

theorem covered (ctx : Context) (s : State) :
    Yields (g.covered ctx) (fun r _ => Pending r.1 r.2) s := by
  refine (hg.assignmentCover ctx s).bind fun e s he => ?_
  exact .run rfl (.pure he)

theorem sequenceAfter (ctx : Context) (start : Nat) {first : Expression}
    (hfirst : Checked false (.expression first)) :
    Reads .expression (g.sequenceAfter ctx start first) := by
  intro s
  unfold Phrases.sequenceAfter
  refine .skip fun atComma s => ?_
  split
  · refine (collect_yields (P := fun e => Checked false (.expression e))
      (fun earlier s _ => ?_) s).bind fun rest s hrest => ?_
    · refine .skip fun found s => ?_
      split
      · exact (hg.assignment ctx s).bind fun e s he => .pure he
      · exact .pure trivial
    · refine .skip fun _ s => .skip fun span s => .pure (.node trivial ?_)
      simpa [Node.children, Node.ofExpression] using ⟨hfirst, hrest⟩
  · exact .pure hfirst

theorem expression (ctx : Context) : Reads .expression (g.expression ctx) := by
  intro s
  refine .skip fun start s => ?_
  exact (hg.assignment ctx s).bind fun first s hfirst => hg.sequenceAfter ctx start hfirst s

theorem template (ctx : Context) (tagged : Bool) (s : State) :
    Yields (template g ctx tagged)
      (fun parts _ => ∀ e ∈ parts.expressions, Checked false (.expression e)) s := by
  unfold Grammar.template
  refine .skip fun start s => ?_
  refine (collect_yields (P := fun part : TemplateElement × Option Expression =>
    ∀ e, part.2 = some e → Checked false (.expression e)) (fun earlier s _ => ?_) s).bind
    fun parts s hparts => ?_
  · refine .skip fun token s => .skip fun quasi s => .skip fun _ s => ?_
    split
    · exact .pure (by simp [Round.Adds])
    · refine (hg.expression ctx.withIn s).bind fun e s he => ?_
      refine .skip fun atBrace s => ?_
      dsimp only
      split
      · refine .skip fun atEnd s => ?_
        split
        · exact (stops_fail _).bind
        · exact (stops_fail _).bind
      · exact .skip fun _ s => .pure (by simpa [Round.Adds] using he)
  · refine .skip fun span s => .pure fun e he => ?_
    obtain ⟨part, hpart, heq⟩ := List.mem_filterMap.mp he
    exact hparts part hpart e heq

theorem propertyKey (ctx : Context) (allowPrivate : Bool) (s : State) :
    Yields (propertyKey g ctx allowPrivate) (fun r _ => Checked false (.expression r.1)) s := by
  have hleaf : ∀ {e : Expression}, IsPlain (.expression e) → Node.ofExpression e = [] →
      Checked false (.expression e) := fun hplain hnone =>
    .node hplain (by simp [Node.children, hnone])
  unfold Grammar.propertyKey
  refine .skip fun token s => ?_
  split
  · refine .skip fun _ s => (hg.assignment ctx.withIn s).bind fun key s hkey => ?_
    exact .skip fun _ s => .pure hkey
  · exact .skip fun lit s => .pure (hleaf trivial rfl)
  · exact .skip fun lit s => .pure (hleaf trivial rfl)
  · exact .skip fun lit s => .pure (hleaf trivial rfl)
  · split
    · exact .skip fun id s => .pure (hleaf trivial rfl)
    · exact (stops_fail _).yields
  · split
    · exact .skip fun id s => .pure (hleaf trivial rfl)
    · exact stops_unexpected.yields

/-- Arguments with their cover states. -/
theorem coveredArguments (ctx : Context) (s : State) :
    Yields (coveredArguments g ctx) (fun found _ => ∀ x ∈ found, ElementPending x) s := by
  unfold Grammar.coveredArguments
  refine .skip fun _ s => ?_
  refine (listed_yields .rightParen (fun earlier s => ?_) s).bind fun found s hfound =>
    .skip fun _ s => .pure hfound
  refine .skip fun start s => .skip fun isSpread s => ?_
  refine (hg.covered ctx.withIn s).bind fun r s hr => ?_
  exact (elementFrom_yields start isSpread hr s).bind fun x s hx => .pure hx

/-- Arguments are settled. Without any the cover state is left alone. -/
theorem arguments (ctx : Context) (s : State) :
    Yields (arguments g ctx) (fun found s' => (∀ x ∈ found, Checked false (.element x)) ∧
      (found = [] → s'.cover = s.cover)) s := by
  unfold Grammar.arguments
  refine (expect_cover .leftParen s).bind fun _ s₁ hs₁ => ?_
  refine (Yields.collectAfter (I := fun found s' => (∀ x ∈ found, Checked false (.element x)) ∧
    (found = [] → s'.cover = s.cover)) (fun earlier s₂ h => ?_) g.size [] s₁ ?_).bind
    fun found s₃ hfound => ?_
  · refine .run rfl ?_
    split
    · exact .pure h
    · refine .bind (Q := fun x _ => Checked false (.element x)) ?_ fun x s hx => ?_
      · refine .skip fun start s => .skip fun isSpread s => ?_
        refine (hg.assignment ctx.withIn s).bind fun e s he => ?_
        have hpending : Pending e Cover.none := he.pending
        exact (elementFrom_yields start isSpread hpending s).mono fun x _ hx => hx.2 rfl
      · exact .skip fun _ s => .pure ⟨List.forall_mem_cons.mpr ⟨hx, h.1⟩, by simp⟩
  · exact ⟨by simp, fun _ => hs₁⟩
  · refine (next_cover s₃).bind fun _ s₄ hs₄ => .pure ⟨fun x hx => ?_, fun hnil => ?_⟩
    · exact hfound.1 x (List.mem_reverse.mpr hx)
    · rw [hs₄]
      exact hfound.2 (by simp [hnil])

end Phrases.Checks

theorem memberName_reads : Reads .expression memberName := by
  intro s
  unfold memberName
  refine .skip fun token s => ?_
  split
  · exact .skip fun id s => .pure (.node trivial (by simp [Node.children, Node.ofExpression]))
  · split
    · exact .skip fun id s => .pure (.node trivial (by simp [Node.children, Node.ofExpression]))
    · exact stops_unexpected.yields

end EcmaSyntax.Grammar
