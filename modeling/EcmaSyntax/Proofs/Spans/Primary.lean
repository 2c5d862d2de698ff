import EcmaSyntax.Proofs.Spans.Phrases
import EcmaSyntax.Proofs.Spans.Class

/-!
What embedded markup lays out. Tags and braces end with the current token, which is taken behind
them.

What primary expressions lay out. The items of a group in parentheses become parameters in their
places if an arrow follows them, or else one expression that starts with the first and ends with
the last of them, or with the parentheses if these are kept.
-/

namespace EcmaSyntax.Grammar

open EcmaSyntax.Diagnostic EcmaSyntax.Lexer EcmaSyntax.Scope EcmaSyntax.Text EcmaSyntax.Tree
open Plotted

variable {version : Nat} [Unicode.IdentifierChars version]

variable {ground : Ground} {lo start : Nat} {row : List Plot} {taken canArrow : Bool} {g : Phrases}
  [h : g.Spans ground] {ctx : Context} {exit : MarkupExit}

section Names

instance : AddsToRow ground markupIdentifier :=
  ⟨fun _ _ _ => .look fun _ => .guard fun _ => .skip fun _ => .token fun _ _ => .look fun _ =>
    .take fun _ => .pure rfl⟩

theorem changesRow_markupPath (object : MarkupPath) :
    ChangesRow ground start (plots object) (.reached true) (Round.markupPath start object)
      (fun found => plots (found.getD object)) (.reached true) :=
  .look fun _ => .ite (fun _ => .skip fun _ => .lay fun _ _ => .frame fun _ => .pure rfl) fun _ =>
    .pure rfl

instance : AddsToRow ground (markupName g) := by
  refine .fresh fun start _ => .lay fun first _ => .look fun _ => .ite (fun _ => ?_) fun _ => ?_
  · exact .skip fun _ => .lay fun name _ => .frame fun span => .pure rfl
  · exact .bind (ChangesRow.iterate (fun object _ => changesRow_markupPath object) g.size
      (.identifier first))
      fun steps => .pure rfl

end Names

section Attributes

instance {text : List Char} : Treads text expectClosingBrace := by
  unfold expectClosingBrace; infer_instance

instance : AddsToRow ground (attributeValue g ctx) := by
  refine .fresh fun start _ => .look fun token => ?_
  split
  · exact .token fun t _ => .look fun _ => .look fun _ => .take fun _ => .pure rfl
  · exact .take fun _ => .look fun _ => .guard fun _ => .lay fun e _ => .skip fun _ =>
      .through fun span => .take fun _ => .pure rfl
  · exact .lay fun value _ => .pure rfl
  · exact .refuse

instance : AddsToRow ground (namedAttribute g ctx) := by
  refine .fresh fun start _ => .lay fun first _ => .look fun _ => ?_
  extract_lets rest
  have hrest : ∀ name : MarkupAttributeName, ChangesRow ground start (plots name) (.reached true)
      (rest name) plots (.reached true) := by
    refine fun name => .look fun _ => .ite (fun _ => ?_) fun _ => ?_
    · exact .skip fun _ => .lay fun value _ => .frame fun span => .pure rfl
    · exact .given (.frame fun span => .pure rfl)
  clear_value rest
  refine .ite (fun _ => ?_) fun _ => ?_
  · exact .skip fun _ => .lay fun name _ => .frame fun span =>
      .given (hrest (.namespaced ⟨span, first, name⟩))
  · exact .given (hrest (.identifier first))

instance : AddsToRow ground (spreadAttribute g ctx) :=
  .fresh fun _ _ => .take fun _ => .take fun _ => .lay fun _ _ => .skip fun _ =>
    .through fun _ => .take fun _ => .pure rfl

instance {earlier : List MarkupAttribute} :
    MayAddToRow ground (Round.markupAttribute g ctx earlier) := by
  refine .skip (h := fun token => ?_)
  split
  · infer_instance
  · infer_instance
  · exact AddsToRow.mayAddToRow ⟨fun _ _ _ => .lay fun _ _ => .pure rfl⟩
  · infer_instance
  · split
    · exact AddsToRow.mayAddToRow ⟨fun _ _ _ => .lay fun _ _ => .pure rfl⟩
    · infer_instance

instance : MayAddToRow ground (attributes g ctx) :=
  inferInstanceAs (MayAddToRow ground (g.collect (Round.markupAttribute g ctx)))

end Attributes

section Elements

theorem row_point_stop {hi : Nat} {span : Span} (h : Row ground lo [.leaf span] hi) :
    Row ground lo [.point span.stop] hi := by
  obtain ⟨hlo, hspan, hhi⟩ := Row.cons_iff.mp h
  exact Row.cons_iff.mpr ⟨Nat.le_trans hlo hspan.le, .of_leaf hspan.isBoundary_stop
    hspan.isBoundary_stop (Nat.le_refl _), hhi⟩

/-- The gap in empty braces begins behind the opening one. -/
instance : AddsToRow ground (childExpression g ctx) := by
  refine .freshToken fun t ht _ => ?_
  extract_lets span
  have hbrace : ChangesRow ground t.start [.leaf span] .beyond next
    (fun _ => [] ++ [.point span.stop])
      (.reached true) := fun s hs => hs.surpasses.mono fun _ s' hs' =>
    ⟨hs'.anchored, hs'.isBoundary, row_point_stop hs'.row⟩
  have hexpression : ∀ wrap : Span → Expression → MarkupChild,
      (∀ whole e, plots (wrap whole e) = [.node whole [e.plot]]) →
      ChangesRow ground t.start [] (.reached true) (do
        let e ← g.expression ctx.withIn
        expectClosingBrace
        let whole ← spanThrough span.start
        nextChild
        return wrap whole e) plots (.reached true) := fun wrap hwrap =>
    .lay fun e _ => .skip fun _ => .through fun whole => .take fun _ => .pure (hwrap whole e)
  refine hbrace.bind fun _ => .skip fun _ => .ite (fun _ => ?_) fun _ => .look fun _ =>
    .ite (fun _ => ?_) fun _ => ?_
  · exact (hexpression .spread fun _ _ => rfl).drop (List.nil_sublist _)
  · exact .gap fun inner => .through fun whole => .take fun _ => .pure rfl
  · exact (hexpression .container fun _ _ => rfl).drop (List.nil_sublist _)

instance {earlier : List MarkupChild} : MayAddToRow ground (Round.child g ctx earlier) := by
  refine .skip (h := fun token => ?_)
  split
  · exact AddsToRow.mayAddToRow ⟨fun _ _ _ => .token fun t _ => .look fun _ =>
      .look fun _ => .take fun _ => .pure rfl⟩
  · exact AddsToRow.mayAddToRow ⟨fun _ _ _ => .lay fun _ _ => .pure rfl⟩
  · refine .skip (h := fun token => ?_)
    split
    · infer_instance
    · exact AddsToRow.mayAddToRow ⟨fun _ _ _ => .lay fun _ _ => .pure rfl⟩
  · infer_instance
  · infer_instance

instance : MayAddToRow ground (children g ctx) :=
  inferInstanceAs (MayAddToRow ground (g.collect (Round.child g ctx)))

theorem changesRow_fragmentFrom : ChangesRow ground start [] (.reached true)
    (fragmentFrom g ctx exit start) plots
    (.reached true) := by
  refine .through fun openingSpan => .take fun _ => .mayAddToRow fun children _ =>
    .mark fun closingStart _ => ?_
  refine .take fun _ => .take fun _ => .look fun _ => .guard fun _ => ?_
  rw [← List.append_nil (_ ++ [Plot.point closingStart])]
  exact .foldThrough fun closingSpan => .take fun _ => .frame fun span => .pure (by simp)

omit h in
/-- A closing tag goes up to its bracket, which is not taken. -/
theorem changesRow_closingTag {name : MarkupName} : ChangesRow ground lo row (.reached taken)
    (closingTag g name) (fun closing => row ++ plots closing) .beyond := by
  refine .mark fun start _ => .take fun _ => .take fun _ => .look fun _ =>
    .mayBranch fun closing _ => ?_
  cases closing with
  | none => exact .refuse
  | some found =>
    exact .guard fun _ => .look fun _ => .guard fun _ => .foldThrough fun span => .pure rfl

theorem changesRow_markupElement : ChangesRow ground start [] (.reached taken)
    (markupElement g ctx exit start)
    plots (.reached true) := by
  refine .lay fun name _ => .mayAddToRow fun found _ => .look fun selfClosing => ?_
  refine .maybe (.look fun _ => .guard fun _ => .through fun openingSpan =>
    .ite (fun _ => ?_) fun _ => ?_)
  · exact .take fun _ => .frame fun span => .pure (by simp)
  · refine .take fun _ => .mayAddToRow fun children _ => changesRow_closingTag.bind fun closing =>
      .take fun _ => ?_
    exact .frame fun span => .pure (by simp)

instance : AddsToRow ground (markup g ctx exit) :=
  AddsToRow.nested (h := .fresh fun _ _ => .take fun _ => .look fun _ =>
    .ite (fun _ => changesRow_fragmentFrom) fun _ => changesRow_markupElement)

instance : AddsToRow ground (markupExpression g ctx) :=
  ⟨fun _ _ _ => .lay fun _ _ => .look fun _ => .guard fun _ => .skip fun _ => .pure rfl⟩

end Elements

section Literals

instance {earlier : List (Element × Cover)} :
    MayAddToRow ground (Round.arrayElement g ctx earlier) := by
  refine .skip (h := fun atEnd => ?_)
  split
  · infer_instance
  · refine .skip (h := fun atComma => ?_)
    split
    · exact .nothing rfl
    · have hitem : AddsToRow ground (do
          let elementStart ← currentStart
          let isSpread ← accept .ellipsis
          let (e, cover) ← g.covered ctx.withIn
          let element ← elementFrom elementStart isSpread e
          Phrases.separator .rightBracket
          return Round.more (element, cover)) := .fresh fun _ _ => .skip fun _ => .lay fun _ _ =>
        changesRow_elementFrom.bind fun _ => .skip fun _ => .pure (List.append_nil _)
      exact hitem.mayAddToRow

instance : AddsToRow ground (arrayLiteral g ctx) :=
  .fresh fun _ _ => .take fun _ => .mayAddToRow fun elements _ => .take fun _ => .skip fun _ =>
    .skip fun _ => .frame fun span => .pure (by simp [plots_map_fst elements fun _ _ => rfl])

instance {text : List Char} : Treads text propertyHead := by
  unfold propertyHead
  refine .skip fun isAsync => ?_
  extract_lets rest
  have hrest : ∀ u, Treads text (rest u) := fun u => .skip fun generator => inferInstance
  clear_value rest
  infer_instance

theorem changesRow_shorthandProperty {keyStart : Nat} {id : Identifier}
    [Bounds ground.text keyStart] :
    ChangesRow ground lo ([] ++ [.point keyStart] ++ [id.plot]) (.reached true)
      (shorthandProperty g ctx lo keyStart id) plots (.reached true) := by
  refine .skip fun _ => .skip fun _ => .skip fun _ => .ite (fun _ => ?_) fun _ => ?_
  · refine .lay fun right _ => ?_
    rw [List.append_assoc]
    exact .fold fun span => .frame fun whole => .pure (by simp [Expression.reuses])
  · refine .drop (List.sublist_append_right _ _) (.frame fun span => .pure ?_)
    simp [Expression.reuses]

instance : AddsToRow ground (objectProperty g ctx) := by
  refine .fresh fun start _ => .skip fun head => .look fun keyToken => .mark fun keyStart _ => ?_
  refine .lay fun ⟨key, computed⟩ _ => .look fun atParen => ?_
  have hkey : (plots (key, computed)).Sublist ([] ++ [.point keyStart] ++ plots (key, computed)) :=
    List.sublist_append_right _ _
  refine .ite (fun _ => .drop hkey ?_) fun _ => .skip fun _ =>
    .ite (fun _ => .drop hkey ?_) fun _ => ?_
  · exact .lay fun value _ => .frame fun span => .pure rfl
  · exact .lay fun ⟨value, cover⟩ _ => .frame fun span => .pure rfl
  · split
    · exact .ite (fun _ => changesRow_shorthandProperty) fun _ => .refuse
    · exact .refuse

instance : AddsToRow ground (objectMember g ctx) := by
  refine .fresh fun start _ => .skip fun _ => .ite (fun _ => ?_) fun _ => ?_
  · exact .lay fun ⟨e, cover⟩ _ => .skip fun _ => .frame fun span => .pure rfl
  · exact .last fun _ => rfl

instance : AddsToRow ground (objectLiteral g ctx) :=
  .fresh fun _ _ => .take fun _ => .mayAddToRow fun members _ => .take fun _ => .skip fun _ =>
    .skip fun _ => .frame fun span => .pure (by simp [plots_map_fst members fun _ _ => rfl])

end Literals

section Arrows

variable {params : List Pattern} {isAsync : Bool}

instance : Plotted ArrowBody where
  plots
    | .concise e => [e.plot]
    | .block span body _ => [.node span (plots body)]

instance {inner : Context} {simple : Bool} : AddsToRow ground (arrowBody g ctx inner simple) := by
  refine .fresh fun start _ => .skip fun _ => .ite (fun _ => ?_) fun _ => ?_
  · exact .lay fun ⟨body, bodyCtx⟩ _ => .frame fun span => .pure (by simp [plots])
  · exact .lay fun e _ => .pure rfl

instance [hparams : Lies ground params] {options : Options} {kind : BindingKind} :
    Treads ground.text (params.forM (declarePattern options ctx kind)) := by
  refine treads_forM fun p hp => ?_
  have : Lies ground p := Lies.item hp
  infer_instance

theorem changesRow_arrowFunction : ChangesRow ground lo (plots params) (.reached taken)
    (arrowFunction g ctx lo params isAsync) plots (.reached true) := by
  refine .known (List.Sublist.refl _) fun _ => .take fun _ => ?_
  extract_lets inner
  have hbody : ChangesRow ground lo (plots params) (.reached true) (inScope [.arrowParams] do
      params.forM (declarePattern g.options ctx .parameter)
      settleParameters (← get).scopes.depth ⟨lo, .arrow, inner, params⟩
      let body ← asFunction (arrowBody g ctx inner (params.all Pattern.isSimple))
      let strict := match body with
        | .concise _ => inner.strict
        | .block _ _ strict => strict
      if strict && !ctx.strict then
        params.forM (checkBoundNames { ctx with strict := true } .parameter)
      return body) (fun body => plots params ++ plots body) (.reached true) := by
    refine .inScope (.skip fun _ => .look fun s => .skip fun _ => ?_)
    exact .bind (.asFunction (.last fun _ => rfl)) fun body => .maybe (.pure rfl)
  refine hbody.bind fun body => .skip fun _ => .frame fun span => ?_
  cases body with
  | concise e => exact .pure (by simp [plots])
  | block bodySpan statements strict => exact .pure (by simp [plots])

/-- An arrow function with one name as its parameter. -/
theorem changesRow_nameArrow {id : Identifier} : ChangesRow ground lo (plots id) (.reached taken)
    (arrowFunction g ctx lo [.identifier id] isAsync) plots (.reached true) := by
  have hrow : plots [Pattern.identifier id] = plots id := rfl
  exact hrow ▸ changesRow_arrowFunction

end Arrows

section Groups

variable {items : List GroupItem}

/-- An item with its start, which is that of a rest parameter. -/
instance : Plotted GroupItem := ⟨fun item => [.point item.start, item.expression.plot]⟩

instance : MayAddToRow ground (groupItem g ctx) := by
  refine .skip (h := fun atEnd => ?_)
  split
  · infer_instance
  · refine AddsToRow.mayAddToRow ⟨fun lo row taken => .mark fun start _ => .skip fun _ => ?_⟩
    refine .ite (fun _ => .lay fun ⟨e, cover⟩ _ => .look fun _ => .ite (fun _ => ?_) fun _ => ?_)
      fun _ => .lay fun ⟨e, cover⟩ _ => .look fun _ => .ite (fun _ => ?_) fun _ => ?_
    · exact .here fun comma _ => .skip fun _ => .look fun _ => .refuse
    · exact .pure (by simp [plots])
    · exact .pure (by simp [plots])
    · exact .take fun _ => .pure (by simp [plots])

theorem settled_groupParameter {c : Conversion} {item : GroupItem} {hi : Nat}
    (h : Row ground lo (plots item) hi) :
    Settled ground.text (fun p : Pattern => Row ground lo p.plots hi) (groupParameter c item) := by
  obtain ⟨hlo, hstart, hrest⟩ := Row.cons_iff.mp h
  obtain ⟨hle, he, hhi⟩ := Row.cons_iff.mp hrest
  unfold groupParameter
  split
  · exact (settled_toRestPattern hstart.isBoundary_start hle he).mono fun p hp =>
      hp.mono hlo hhi.le
  · exact (settled_toPattern item.expression he).mono fun p hp =>
      hp.mono (Nat.le_trans hlo hle) hhi.le

theorem settled_groupParameters {c : Conversion} (items : List GroupItem) {hi : Nat}
    (h : Row ground lo (plots items) hi) :
    Settled ground.text (fun params => Row ground lo (plots params) hi)
      (items.mapM (groupParameter c)) := by
  induction items generalizing lo with
  | nil => exact h
  | cons item rest ih =>
    obtain ⟨mid, hitem, hrest⟩ := Row.append_iff.mp h
    rw [List.mapM_cons]
    exact (settled_groupParameter hitem).bind fun p hp => (ih hrest).bind fun ps hps =>
      hp.append hps

instance {text : List Char} : Treads text checkArrow := by unfold checkArrow; infer_instance

/-- Something noted behind the start is refused where it was noted. -/
theorem ChangesRow.noted {α : Type} {noted : State → Option Nat} {start : Nat} {cause : Cause}
    {rest : Unit → Parser α} {row' : α → List Plot} {edge' : Edge}
    (hnoted : ∀ s, Anchored ground.text s → ∀ offset ∈ noted s, IsBoundary ground.text offset)
    (hrest : ChangesRow ground lo row (.reached taken) (rest ()) row' edge') :
    ChangesRow ground lo row (.reached taken)
      (get >>= fun s => checkNone (noted s) start cause >>= rest)
      row' edge' := by
  refine .state fun s hs => ?_
  have hcheck : Treads ground.text (checkNone (noted s) start cause) :=
    treads_checkNone (hnoted s hs)
  exact .skip fun _ => hrest

theorem changesRow_groupArrow : ChangesRow ground lo (plots items) (.reached taken)
    (groupArrow g ctx lo items)
    plots (.reached true) :=
  .skip fun _ => .noted (fun _ hs => hs.lastYield)
    (.noted (fun _ hs => hs.lastAwait) (.look fun _ =>
    .bind (.convert fun _ => settled_groupParameters items) fun _ => changesRow_arrowFunction))

/-- The expressions of a group are one expression. -/
theorem row_groupExpression {first : Expression} {rest : List Expression} {hi : Nat}
    (h : Row ground lo (plots (first :: rest)) hi) :
    Row ground lo [(groupExpression first rest).plot] hi := by
  unfold groupExpression
  cases hlast : rest.getLast? with
  | none =>
    obtain rfl := List.getLast?_eq_none_iff.mp hlast
    exact h
  | some last =>
    obtain ⟨init, rfl⟩ := List.getLast?_eq_some_iff.mp hlast
    obtain ⟨hlo, hfirst, hrest⟩ := Row.cons_iff.mp h
    change Row ground _ (plots (init ++ [last])) hi at hrest
    rw [plots_append] at hrest
    obtain ⟨mid, hinit, hend⟩ := Row.append_iff.mp hrest
    obtain ⟨hmid, hlast, hhi⟩ := Row.cons_iff.mp hend
    have hrow : Row ground first.plot.start (plots (first :: (init ++ [last]))) last.plot.stop := by
      rw [plots_cons, plots_append]
      exact (Row.single hfirst).append (hinit.append ((Row.single hlast).mono hmid (Nat.le_refl _)))
    have hspan : (⟨first.plot.start, last.plot.stop⟩ : Span) = ⟨first.start, last.span.stop⟩ := by
      simp only [Plot.start, Plot.stop, Expression.plot_span, Expression.start]
    have hsequence := (hrow.node hfirst.isBoundary_start hlast.isBoundary_stop).mono hlo hhi.le
    rw [hspan] at hsequence
    simpa using hsequence

theorem sublist_expressions (items : List GroupItem) :
    (plots (items.map GroupItem.expression)).Sublist (plots items) := by
  induction items with
  | nil => exact List.Sublist.refl _
  | cons item rest ih => exact .cons _ (.cons_cons _ ih)

omit h in
theorem changesRow_groupValue {close : Nat} [Bounds ground.text close] :
    ChangesRow ground lo (plots items) (.reached true) (groupValue g lo close items) plots
      (.reached true) := by
  refine .known (List.Sublist.refl _) fun hitems => ?_
  unfold groupValue
  extract_lets value
  have hvalue : ChangesRow ground lo (plots items) (.reached true) (value ()) plots
    (.reached true) := by
    refine .drop (sublist_expressions items) (.known (List.Sublist.refl _) fun _ => ?_)
    dsimp only [value]
    cases items with
    | nil => exact .refuse
    | cons first rest =>
      refine .guard fun _ => .skip fun _ =>
        .reshape (fun _ => row_groupExpression) (.skip fun _ => ?_)
      exact .ite (fun _ => .frame fun span => .pure rfl) fun _ => .skip fun _ => .pure rfl
  clear_value value
  split
  · rename_i item hfound
    have : Bounds ground.text item.start :=
      ⟨(hitems.item (List.mem_of_find?_eq_some hfound)).fits _ List.mem_cons_self
        |>.isBoundary_start⟩
    exact .refuse
  · exact hvalue

theorem changesRow_parenGroup : ChangesRow ground start [] (.reached taken)
    (parenGroup g ctx start canArrow) plots
    (.reached true) := by
  refine .take fun _ => .mayAddToRow fun items _ => .here fun close _ => .take fun _ =>
    .look fun _ => ?_
  exact .ite (fun _ => changesRow_groupArrow) fun _ => changesRow_groupValue

end Groups

section Names

theorem changesRow_asyncNameArrow :
    ChangesRow ground start [] (.reached taken) (asyncNameArrow g ctx start) plots
      (.reached true) := by
  refine .skip fun _ => .lay fun id hid => .look fun _ => .guard fun _ => .skip fun _ => ?_
  have : Bounds ground.text id.span.start := ⟨fits_name (hid.fits _ List.mem_cons_self)⟩
  exact .skip fun _ => changesRow_nameArrow

instance {elements : List Element} [helements : Lies ground elements] :
    Lies ground (elements.filterMap Element.expression?) := by
  refine ⟨holds_plots_iff.mpr fun e he => ?_⟩
  obtain ⟨element, helement, hexpression⟩ := List.mem_filterMap.mp he
  have hfits := (helements.item helement).fits
  cases element with
  | item e =>
    obtain rfl := Option.some.inj hexpression
    exact hfits
  | spread span e =>
    obtain rfl := Option.some.inj hexpression
    exact List.forall_mem_singleton.mpr ((hfits _ List.mem_cons_self).part List.mem_cons_self)
  | hole => cases hexpression

theorem changesRow_asyncCallOrArrow :
    ChangesRow ground start [] (.reached taken) (asyncCallOrArrow g ctx start canArrow) plots
      (.reached true) := by
  refine .lay fun callee _ => .look fun lineBreak => .lay fun found hfound => ?_
  extract_lets elements
  have hrow : plots found = plots elements := (plots_map_fst found fun _ _ => rfl).symm
  have : Lies ground elements := ⟨hrow ▸ hfound.fits⟩
  rw [hrow]
  refine .look fun _ => .ite (fun _ => .drop (List.sublist_append_right _ _) ?_) fun _ => ?_
  · refine .skip fun _ => .noted (fun _ hs => hs.lastAwait) (.noted (fun _ hs => hs.lastAwaitName)
      (.noted (fun _ hs => hs.lastYield) (.look fun _ => .bind (.convert fun hi hrow => ?_)
        fun _ => changesRow_arrowFunction)))
    rw [← plotsOfElements_eq] at hrow
    simpa only [plotsOfPatterns_eq] using settled_toPatterns elements hrow
  · exact .skip fun _ => .skip fun _ => .frame fun span => .pure (by simp)

variable [Bounds ground.text start]

theorem changesRow_plainName :
    ChangesRow ground start [] (.reached taken) (plainName g ctx start canArrow) plots
      (.reached true) := by
  refine .lay fun id _ => .look fun _ => .ite (fun _ => ?_) fun _ => ?_
  · exact .skip fun _ => .skip fun _ => changesRow_nameArrow
  · exact .skip fun _ => .skip fun _ => .skip fun _ => .pure rfl

theorem changesRow_namePrimary :
    ChangesRow ground start [] (.reached false) (namePrimary g ctx start canArrow) plots
      (.reached true) := by
  refine .look fun _ => .ite (fun _ => .skip fun ⟨token, flags⟩ => ?_) fun _ => changesRow_plainName
  refine .ite (fun _ => changesRow_functionExpression) fun _ => .skip fun isLoop => ?_
  exact .ite (fun _ => changesRow_asyncNameArrow) fun _ =>
    .ite (fun _ => changesRow_asyncCallOrArrow) fun _ =>
    changesRow_plainName

end Names

section Primary

theorem changesRow_otherPrimary [Bounds ground.text start] :
    ChangesRow ground start [] (.reached false) (otherPrimary g ctx start canArrow) plots
      (.reached true) := by
  refine fun s hs => .run rfl ?_
  split
  · exact hs.changesRow (.lay fun _ _ => .pure rfl)
  · exact hs.changesRow (.lay fun _ _ => .pure rfl)
  · exact hs.changesRow (.lay fun _ _ => .pure rfl)
  · exact hs.changesRow (.lay fun _ _ => .pure rfl)
  · exact hs.changesRow (.lay fun _ _ => .pure rfl)
  · exact hs.changesRow (.lay fun _ _ => .pure rfl)
  · exact hs.changesRow (.lay fun _ _ => .pure rfl)
  · exact hs.changesRow (.lay fun _ _ => .pure rfl)
  · exact hs.changesRow (.take fun _ => .frame fun _ => .pure rfl)
  · rename_i htoken
    exact (hs.template (htoken ▸ rfl) false).bind fun parts s' hs' => .pure hs'
  · rename_i htoken
    exact (hs.template (htoken ▸ rfl) false).bind fun parts s' hs' => .pure hs'
  · exact hs.changesRow (.last fun _ => rfl)
  · exact hs.changesRow (.last fun _ => rfl)
  · exact hs.changesRow changesRow_parenGroup
  · exact hs.changesRow changesRow_functionExpression
  · exact hs.changesRow (changesRow_bareClass.bind fun _ => .pure rfl)
  · refine hs.changesRow (.ite (fun hnext => ?_) fun _ => .refuse)
    have := mayAddToRow_decorators (h := h) (c := ctx) hnext
    exact .mayAddToRow fun found _ => .look fun _ => .guard fun _ =>
      .bind changesRow_decoratedClass fun _ => .pure rfl
  · exact hs.changesRow (.ite (fun _ => .last fun _ => rfl) fun _ => .refuse)
  · exact hs.changesRow (.skip fun _ => .ite (fun _ => .lay fun _ _ => .pure rfl) fun _ => .refuse)
  · exact hs.changesRow .refuse

instance : AddsToRow ground (primary g ctx) := by
  refine .fresh fun start _ => .look fun s => .skip fun _ => .look fun token => ?_
  refine .ite (fun _ => changesRow_namePrimary) fun _ => .look fun _ => ?_
  exact .ite (fun _ => .refuse) fun _ => changesRow_otherPrimary

end Primary

end EcmaSyntax.Grammar
