import EcmaSyntax.Grammar.Class
import EcmaSyntax.Proofs.Grammar.LightSteps
import EcmaSyntax.Proofs.Progress.Loops

/-!
Where imports and exports do not stand. The contexts of functions, class elements and blocks are
inside the top level of a module, and directives at the start of a body change nothing about that;
they can only turn the code strict.
-/

namespace EcmaSyntax.Grammar

open EcmaSyntax.Diagnostic EcmaSyntax.Tree

variable {version : Nat} [Unicode.IdentifierChars version]

variable {ctx : Context}

/-- The context is not that of the top level of a module. -/
class Context.Inner (ctx : Context) : Prop where
  topLevel : ctx.topLevel = false

section Contexts

instance {isAsync isGenerator : Bool} : (ctx.enterFunction isAsync isGenerator).Inner :=
  ⟨by
    change ((ctx.topLevel && !true) && !false) = false
    simp⟩

instance {isAsync : Bool} : (ctx.enterArrow isAsync).Inner := ⟨Bool.and_false ctx.topLevel⟩

instance : (initializerContext ctx).Inner := ⟨Bool.and_false ctx.topLevel⟩

variable {strict module inFunction inGenerator inAsync inIteration inSwitch disallowIn inMethod
  inDerivedConstructor inClassField inStaticBlock inParameters newTarget : Bool}

instance : Context.Inner ⟨strict, module, inFunction, inGenerator, inAsync, inIteration, inSwitch,
    disallowIn, inMethod, inDerivedConstructor, inClassField, inStaticBlock,
      inParameters, newTarget, false⟩ := ⟨rfl⟩

/-- A context that differs in other flags. -/
instance [h : ctx.Inner] : Context.Inner ⟨strict, module, inFunction, inGenerator, inAsync,
    inIteration, inSwitch, disallowIn, inMethod, inDerivedConstructor, inClassField, inStaticBlock,
    inParameters, newTarget, ctx.topLevel⟩ := ⟨h.topLevel⟩

end Contexts

section Directives

/-- The first context is the second one with directives taken into account. -/
structure Context.Follows (after before : Context) : Prop where
  topLevel : after.topLevel = before.topLevel
  strict : before.strict = true → after.strict = true

theorem Context.Follows.refl (ctx : Context) : ctx.Follows ctx := ⟨rfl, id⟩

variable {g : Phrases} {simpleParams : Bool}

/-- The context after the directives so far. -/
theorem follows_before {earlier : List (Statement × Prologue)}
    (h : ∀ entry ∈ earlier, entry.2.ctx.Follows ctx) :
    ((earlier.head?.map Prod.snd).getD ⟨ctx, none⟩).ctx.Follows ctx := by
  cases earlier with
  | nil => exact .refl ctx
  | cons entry _ => exact h entry List.mem_cons_self

theorem directive_round_yields (earlier : List (Statement × Prologue))
    (s : State) (h : ∀ entry ∈ earlier, entry.2.ctx.Follows ctx) :
    Yields (Round.directive g ctx simpleParams earlier)
      (fun r _ => r.Adds fun entry => entry.2.ctx.Follows ctx) s := by
  have hbefore := follows_before h
  unfold Round.directive
  extract_lets before
  refine .skip fun atString s => ?_
  split
  · exact .pure trivial
  · refine .skip fun _ s => .skip fun found s => ?_
    split
    split
    · refine Meets.bind (((tells_add _ _ _ _ _ s).mono fun _ _ h => h.2).weaken
        fun _ _ => trivial) fun after _ hafter => .pure ?_
      refine ⟨(congrArg Context.topLevel hafter.1).trans hbefore.topLevel, fun hstrict => ?_⟩
      rw [congrArg Context.strict hafter.1]
      exact Bool.or_eq_true_iff.mpr (.inl (hbefore.strict hstrict))
    · exact .pure hbefore

theorem prologue_follows (s : State) : Yields (prologue g ctx simpleParams)
    (fun found _ => found.2.Follows ctx) s := by
  unfold prologue
  refine (g.collect_yields directive_round_yields s).bind fun found _ hfound => .pure ?_
  cases hlast : found.getLast? with
  | none => exact .refl ctx
  | some entry => exact hfound entry (List.mem_of_getLast? hlast)

end Directives

section Bodies

variable {g : Phrases} {simpleParams : Bool} {I : List Statement → State → Prop}

theorem add_yields (prologue : Prologue) (directive : String) (start : Nat) (hasOctalEscape : Bool)
    (s : State) : Yields (prologue.add simpleParams directive start hasOctalEscape)
      (fun _ s' => s' = s) s := by
  unfold Prologue.add
  generalize (prologue.octalEscape <|> if hasOctalEscape then some start else none) = octalEscape
  dsimp only
  split
  · refine (stops_failAt _ _).guard ?_
    cases octalEscape with
    | none => exact .pure rfl
    | some offset => exact (stops_failAt _ _).yields
  · exact .pure rfl

/-- What every item keeps about the statements so far and the state. A directive is an item that is
marked as such. -/
structure Phrases.Keeps (g : Phrases) (ctx : Context) (I : List Statement → State → Prop) :
    Prop where
  item : ∀ inner : Context, inner.Follows ctx → ∀ earlier s, I earlier s →
    Yields (g.listItem inner) (fun x s' => I (x :: earlier) s') s
  directive : ∀ earlier s span e mark mark',
    I (.expression span e mark :: earlier) s → I (.expression span e mark' :: earlier) s

variable (hI : g.Keeps ctx I)

include hI

theorem directive_keeps {inner : Context} (hinner : inner.Follows ctx) {earlier : List Statement}
    {s : State} (h : I earlier s) :
    Yields (directive g inner) (fun found s' => I (found.1 :: earlier) s') s := by
  unfold directive
  refine .run rfl ((hI.item inner hinner earlier s h).bind fun x s' hx => ?_)
  split
  · split
    · exact .pure (hI.directive _ _ _ _ _ _ hx)
    · exact .pure hx
  · exact .pure hx

theorem directive_round_keeps {earlier : List (Statement × Prologue)} {s : State}
    (hfollows : ∀ entry ∈ earlier, entry.2.ctx.Follows ctx) (h : I (earlier.map Prod.fst) s) :
    Yields (Round.directive g ctx simpleParams earlier) (fun r s' =>
      match r with
      | .stop => I (earlier.map Prod.fst) s'
      | .last entry => I (entry.1 :: earlier.map Prod.fst) s'
      | .more entry => I (entry.1 :: earlier.map Prod.fst) s') s := by
  have hbefore := follows_before hfollows
  unfold Round.directive
  extract_lets before
  refine .run rfl ?_
  split
  · exact .pure h
  · refine .run rfl ((directive_keeps hI hbefore h).bind fun found s₁ h₁ => ?_)
    split
    split
    · refine (add_yields _ _ _ _ s₁).bind fun after s₂ hs₂ => .pure ?_
      exact hs₂ ▸ h₁
    · exact .pure h₁

theorem prologue_keeps {s : State} (h : I [] s) :
    Yields (prologue g ctx simpleParams) (fun found s' => I found.1.reverse s') s := by
  have hcollect : Yields (g.collect (Round.directive g ctx simpleParams)) (fun found s' =>
      (∀ x ∈ found.reverse, x.2.ctx.Follows ctx) ∧ I (found.reverse.map Prod.fst) s') s := by
    refine Yields.collectAfter (I := fun (earlier : List (Statement × Prologue)) s =>
        (∀ x ∈ earlier, x.2.ctx.Follows ctx) ∧ I (earlier.map Prod.fst) s)
      (fun earlier s hearlier => ?_) g.size [] s ⟨List.forall_mem_nil _, h⟩
    obtain ⟨hfollows, hkept⟩ := hearlier
    refine ((directive_round_keeps hI hfollows hkept).and
      (directive_round_yields earlier s hfollows)).mono fun r s' hr => ?_
    cases r with
    | stop => exact ⟨hfollows, hr.1⟩
    | last entry => exact ⟨List.forall_mem_cons.mpr ⟨hr.2, hfollows⟩, hr.1⟩
    | more entry => exact ⟨List.forall_mem_cons.mpr ⟨hr.2, hfollows⟩, hr.1⟩
  unfold prologue
  refine hcollect.bind fun found s' hfound => .pure ?_
  rw [← List.map_reverse]
  exact hfound.2

/-- What every item keeps holds at the end of a body. -/
theorem bodyStatements_keeps {close : Token} {s : State} (h : I [] s) :
    Yields (bodyStatements g ctx simpleParams close) (fun found s' => I found.1.reverse s') s := by
  have hstart : Yields (prologue g ctx simpleParams)
      (fun found s' => I found.1.reverse s' ∧ found.2.Follows ctx) s :=
    (prologue_keeps hI h).and (prologue_follows s)
  unfold bodyStatements
  refine hstart.bind fun found s₁ h₁ => ?_
  obtain ⟨directives, inner⟩ := found
  refine ((Yields.collectAfter (I := fun earlier s => I (earlier ++ directives.reverse) s) ?_
    g.size [] s₁ h₁.1).bind fun found s₂ hfound => .pure ?_)
  · intro earlier s h
    refine .run rfl ?_
    split
    · exact .pure h
    · refine .run rfl ((stops_unexpected).guard ?_)
      exact (hI.item inner h₁.2 _ s h).bind fun x s' hx => .pure hx
  · simpa using hfound

end Bodies

end EcmaSyntax.Grammar
