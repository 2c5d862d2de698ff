import EcmaSyntax.Proofs.Spans.Steps
import EcmaSyntax.Tree.Basic

/-!
Places that are found in trees. What is taken out of a tree to be reported later, a shorthand
property that has an initializer, a second prototype or a bound name, stands where a plot of the
tree starts. A literal that is turned into a pattern keeps its place: the pattern is laid out
between the ends of the literal, and what keeps it from being a pattern stands in it.
-/

namespace EcmaSyntax.Grammar

open EcmaSyntax.Diagnostic EcmaSyntax.Text EcmaSyntax.Tree
open Plotted

variable {version : Nat} [Unicode.IdentifierChars version]

variable {α : Type} {ground : Ground}

section Lists

variable [Plotted α]

theorem holds_plots_iff {items : List α} :
    ground.Holds (plots items) ↔ ∀ a ∈ items, ground.Holds (plots a) := by
  change (∀ p ∈ items.flatMap plots, p.Fits ground) ↔ _
  simp only [List.mem_flatMap]
  exact ⟨fun h a ha p hp => h p ⟨a, ha, hp⟩, fun h p ⟨a, ha, hp⟩ => h a ha p hp⟩

theorem Lies.item {items : List α} [h : Lies ground items] {a : α} (ha : a ∈ items) :
    Lies ground a :=
  ⟨holds_plots_iff.mp h.fits a ha⟩

end Lists

section Parts

variable {key value : Expression} {span : Span}

theorem fits_start {e : Expression} (h : e.plot.Fits ground) : IsBoundary ground.text e.start := by
  have hstart := h.isBoundary_start
  rwa [Plot.start, Expression.plot_span] at hstart

theorem fits_name {id : Identifier} (h : id.plot.Fits ground) :
    IsBoundary ground.text id.span.start := h.isBoundary_start

/-- A value that reuses its key has the plot of the key in it. -/
theorem Expression.fits_of_reuses (h : value.reuses key = true) (hvalue : value.plot.Fits ground) :
    key.plot.Fits ground := by
  unfold Tree.Expression.reuses at h
  split at h
  · obtain rfl := eq_of_beq h
    exact hvalue
  · obtain rfl := eq_of_beq h
    exact hvalue.part List.mem_cons_self
  · cases h

theorem Pattern.holds_of_reuses {value : Pattern} (h : value.reuses key = true)
    (hvalue : ground.Holds value.plots) : key.plot.Fits ground := by
  unfold Tree.Pattern.reuses at h
  split at h
  · obtain rfl := eq_of_beq h
    exact hvalue _ List.mem_cons_self
  · obtain rfl := eq_of_beq h
    exact (hvalue _ List.mem_cons_self).part List.mem_cons_self
  · cases h

theorem fits_property {kind : PropertyKind} {method shorthand computed : Bool}
    (h : (ObjectMember.property span key value kind method shorthand computed).plot.Fits ground) :
    key.plot.Fits ground ∧ value.plot.Fits ground := by
  have hparts : ∀ q ∈ (if shorthand && value.reuses key then
    [value.plot] else [key.plot, value.plot]),
      q.Fits ground := fun q hq => h.part hq
  split at hparts
  · rename_i hreuse
    have hvalue := hparts _ List.mem_cons_self
    exact ⟨Expression.fits_of_reuses (Bool.and_eq_true_iff.mp hreuse).2 hvalue, hvalue⟩
  · exact ⟨hparts _ List.mem_cons_self, hparts _ (List.mem_cons_of_mem _ List.mem_cons_self)⟩

theorem holds_patternProperty {value : Pattern} {shorthand computed : Bool}
    (h : (PatternProperty.property span key value shorthand computed).plot.Fits ground) :
    key.plot.Fits ground ∧ ground.Holds value.plots := by
  have hparts : ∀ q ∈ (if shorthand && value.reuses key then
    value.plots else key.plot :: value.plots),
      q.Fits ground := fun q hq => h.part hq
  split at hparts
  · rename_i hreuse
    exact ⟨Pattern.holds_of_reuses (Bool.and_eq_true_iff.mp hreuse).2 hparts, hparts⟩
  · exact List.forall_mem_cons.mp hparts

end Parts

section Covers

theorem forall_mem_orElse {P : Nat → Prop} {first second : Option Nat} (hfirst : ∀ n ∈ first, P n)
    (hsecond : ∀ n ∈ second, P n) : ∀ n ∈ (first <|> second), P n := by
  cases first with
  | none => exact hsecond
  | some n => exact hfirst

mutual

theorem isBoundary_shorthandInitializer (e : Expression) (h : e.plot.Fits ground) :
    ∀ offset ∈ shorthandInitializer? e, IsBoundary ground.text offset := by
  cases e with
  | array span elements =>
    exact isBoundary_shorthandInitializerOfElements elements fun q hq => h.part hq
  | object span members =>
    exact isBoundary_shorthandInitializerOfMembers members fun q hq => h.part hq
  | _ => exact nofun

theorem isBoundary_shorthandInitializerOfElements (elements : List Element)
    (h : ground.Holds (plotsOfElements elements)) :
    ∀ offset ∈ shorthandInitializerOfElements? elements, IsBoundary ground.text offset := by
  match elements with
  | [] => exact nofun
  | .hole :: rest => exact isBoundary_shorthandInitializerOfElements rest h
  | .item e :: rest =>
    obtain ⟨he, hrest⟩ := List.forall_mem_cons.mp h
    exact forall_mem_orElse (isBoundary_shorthandInitializer e he)
      (isBoundary_shorthandInitializerOfElements rest hrest)
  | .spread span e :: rest =>
    obtain ⟨he, hrest⟩ := List.forall_mem_cons.mp h
    exact forall_mem_orElse (isBoundary_shorthandInitializer e (he.part List.mem_cons_self))
      (isBoundary_shorthandInitializerOfElements rest hrest)

theorem isBoundary_shorthandInitializerOfMembers (members : List ObjectMember)
    (h : ground.Holds (plotsOfMembers members)) :
    ∀ offset ∈ shorthandInitializerOfMembers? members, IsBoundary ground.text offset := by
  match members with
  | [] => exact nofun
  | .property span key value kind method shorthand computed :: rest =>
    obtain ⟨hmember, hrest⟩ := List.forall_mem_cons.mp h
    have hvalue := (fits_property hmember).2
    have ih := isBoundary_shorthandInitializerOfMembers rest hrest
    unfold shorthandInitializerOfMembers?
    split
    · split
      · intro offset hoffset
        obtain rfl := Option.some.inj hoffset
        exact hvalue.isBoundary_start
      · exact ih
    · exact forall_mem_orElse (isBoundary_shorthandInitializer value hvalue) ih
  | .spread span e :: rest =>
    obtain ⟨he, hrest⟩ := List.forall_mem_cons.mp h
    exact forall_mem_orElse (isBoundary_shorthandInitializer e (he.part List.mem_cons_self))
      (isBoundary_shorthandInitializerOfMembers rest hrest)

end

theorem isBoundary_secondProto {members : List ObjectMember}
    (h : ground.Holds (plotsOfMembers members)) :
    ∀ offset ∈ secondProto? members, IsBoundary ground.text offset := by
  intro offset hoffset
  unfold secondProto? at hoffset
  split at hoffset
  · rename_i span key value kind method shorthand computed rest hsecond
    obtain rfl := Option.some.inj hoffset
    have hmem : ObjectMember.property span key value kind method shorthand computed ∈ members :=
      (List.mem_filter.mp (List.mem_of_mem_drop (hsecond ▸ List.mem_cons_self))).1
    rw [plotsOfMembers_eq, holds_plots_iff] at h
    exact fits_start (fits_property (h _ hmem _ List.mem_cons_self)).1
  · cases hoffset

mutual

theorem isBoundary_repeatedProto (e : Expression) (h : e.plot.Fits ground) :
    ∀ offset ∈ repeatedProto? e, IsBoundary ground.text offset := by
  cases e with
  | array span elements =>
    exact isBoundary_repeatedProtoOfElements elements fun q hq => h.part hq
  | object span members =>
    have hmembers : ground.Holds (plotsOfMembers members) := fun q hq => h.part hq
    exact forall_mem_orElse (isBoundary_secondProto hmembers)
      (isBoundary_repeatedProtoOfMembers members hmembers)
  | _ => exact nofun

theorem isBoundary_repeatedProtoOfElements (elements : List Element)
    (h : ground.Holds (plotsOfElements elements)) :
    ∀ offset ∈ repeatedProtoOfElements? elements, IsBoundary ground.text offset := by
  match elements with
  | [] => exact nofun
  | .hole :: rest => exact isBoundary_repeatedProtoOfElements rest h
  | .item e :: rest =>
    obtain ⟨he, hrest⟩ := List.forall_mem_cons.mp h
    exact forall_mem_orElse (isBoundary_repeatedProto e he)
      (isBoundary_repeatedProtoOfElements rest hrest)
  | .spread span e :: rest =>
    obtain ⟨he, hrest⟩ := List.forall_mem_cons.mp h
    exact forall_mem_orElse (isBoundary_repeatedProto e (he.part List.mem_cons_self))
      (isBoundary_repeatedProtoOfElements rest hrest)

theorem isBoundary_repeatedProtoOfMembers (members : List ObjectMember)
    (h : ground.Holds (plotsOfMembers members)) :
    ∀ offset ∈ repeatedProtoOfMembers? members, IsBoundary ground.text offset := by
  match members with
  | [] => exact nofun
  | .property span key value kind method shorthand computed :: rest =>
    obtain ⟨hmember, hrest⟩ := List.forall_mem_cons.mp h
    exact forall_mem_orElse (isBoundary_repeatedProto value (fits_property hmember).2)
      (isBoundary_repeatedProtoOfMembers rest hrest)
  | .spread span e :: rest =>
    obtain ⟨he, hrest⟩ := List.forall_mem_cons.mp h
    exact forall_mem_orElse (isBoundary_repeatedProto e (he.part List.mem_cons_self))
      (isBoundary_repeatedProtoOfMembers rest hrest)

end

/-- A place found in one of several expressions, or else a place that is known. -/
theorem isBoundary_findSome {expressions : List Expression} {find : Expression → Option Nat}
    (hfind : ∀ e : Expression, e.plot.Fits ground →
      ∀ offset ∈ find e, IsBoundary ground.text offset)
    (h : ground.Holds (plots expressions)) {fallback : Nat}
    (hfallback : IsBoundary ground.text fallback) :
    IsBoundary ground.text ((expressions.findSome? find).getD fallback) := by
  cases hfound : expressions.findSome? find with
  | none => exact hfallback
  | some offset =>
    obtain ⟨e, he, hoffset⟩ := List.exists_of_findSome?_eq_some hfound
    exact hfind e (holds_plots_iff.mp h e he _ List.mem_cons_self) offset hoffset

instance {cover : Cover} {expressions : List Expression} [h : Lies ground expressions] :
    Treads ground.text (checkCovers cover expressions) := by
  unfold checkCovers
  refine ⟨fun s hs => .run rfl ?_⟩
  dsimp only
  have hfallback : IsBoundary ground.text
    ((expressions.head?.map Expression.start).getD s.start) := by
    cases expressions with
    | nil => exact hs.isBoundary_start
    | cons e rest => exact fits_start (h.fits _ List.mem_cons_self)
  split
  · exact isBoundary_findSome isBoundary_shorthandInitializer h.fits hfallback
  · split
    · exact isBoundary_findSome isBoundary_repeatedProto h.fits hfallback
    · exact .pure (.refl hs)

instance {e : Expression} [h : Lies ground e] : Treads ground.text (checkCover e) := by
  have : Lies ground [e] := ⟨h.fits⟩
  unfold checkCover
  infer_instance

end Covers

section Names

mutual

/-- The names that a pattern binds stand in it. -/
theorem Pattern.fits_boundNames (p : Pattern) (h : ground.Holds p.plots) :
    ∀ id ∈ p.boundNames, id.plot.Fits ground := by
  cases p with
  | identifier id => exact List.forall_mem_singleton.mpr (h _ List.mem_cons_self)
  | object span properties =>
    exact fits_boundNamesOfProperties properties fun q hq => (h _ List.mem_cons_self).part hq
  | array span elements =>
    exact fits_boundNamesOfPatterns elements fun q hq => (h _ List.mem_cons_self).part hq
  | rest span argument =>
    exact Pattern.fits_boundNames argument fun q hq => (h _ List.mem_cons_self).part hq
  | withDefault span left right =>
    exact Pattern.fits_boundNames left fun q hq =>
      (h _ List.mem_cons_self).part (List.mem_append_left _ hq)
  | member span object property computed isOptional => exact nofun
  | hole => exact nofun

theorem fits_boundNamesOfPatterns (patterns : List Pattern)
    (h : ground.Holds (plotsOfPatterns patterns)) :
    ∀ id ∈ boundNamesOfPatterns patterns, id.plot.Fits ground := by
  match patterns with
  | [] => exact nofun
  | p :: rest =>
    obtain ⟨hp, hrest⟩ := List.forall_mem_append.mp h
    exact List.forall_mem_append.mpr ⟨Pattern.fits_boundNames p hp,
      fits_boundNamesOfPatterns rest hrest⟩

theorem fits_boundNamesOfProperties (properties : List PatternProperty)
    (h : ground.Holds (plotsOfProperties properties)) :
    ∀ id ∈ boundNamesOfProperties properties, id.plot.Fits ground := by
  match properties with
  | [] => exact nofun
  | .property span key value shorthand computed :: rest =>
    obtain ⟨hproperty, hrest⟩ := List.forall_mem_cons.mp h
    exact List.forall_mem_append.mpr ⟨Pattern.fits_boundNames value
      (holds_patternProperty hproperty).2, fits_boundNamesOfProperties rest hrest⟩
  | .rest span argument :: rest =>
    obtain ⟨hproperty, hrest⟩ := List.forall_mem_cons.mp h
    exact List.forall_mem_append.mpr ⟨Pattern.fits_boundNames argument fun q hq =>
      hproperty.part hq, fits_boundNamesOfProperties rest hrest⟩

end

theorem treads_forM {items : List α} {f : α → Parser PUnit} {text : List Char}
    (h : ∀ a ∈ items, Treads text (f a)) : Treads text (items.forM f) := by
  induction items with
  | nil => exact inferInstanceAs (Treads text (pure PUnit.unit))
  | cons a rest ih =>
    obtain ⟨ha, hrest⟩ := List.forall_mem_cons.mp h
    have := ih hrest
    exact inferInstanceAs (Treads text (f a >>= fun _ => rest.forM f))

instance {options : Options} {ctx : Context} {kind : Scope.BindingKind} {p : Pattern}
    [h : Lies ground p] : Treads ground.text (declarePattern options ctx kind p) := by
  refine treads_forM fun id hid => ?_
  have : Bounds ground.text id.span.start := ⟨fits_name (Pattern.fits_boundNames p h.fits id hid)⟩
  infer_instance

instance {ctx : Context} {kind : Scope.BindingKind} {p : Pattern} [h : Lies ground p] :
    Treads ground.text (checkBoundNames ctx kind p) := by
  refine treads_forM fun id hid => ?_
  have : Bounds ground.text id.span.start := ⟨fits_name (Pattern.fits_boundNames p h.fits id hid)⟩
  unfold checkBinding
  infer_instance

end Names

section Patterns

variable {c : Conversion}

theorem settled_invalidTarget {offset : Nat} (h : IsBoundary ground.text offset) {Q : α → Prop} :
    Settled ground.text Q (Conversion.invalidTarget offset) := h

theorem settled_checkName {id : Identifier} (h : id.plot.Fits ground) :
    Settled ground.text (fun _ => True) (c.checkName id) := .refuse (fits_name h) _

mutual

theorem settled_checkPattern (p : Pattern) (h : ground.Holds p.plots) :
    Settled ground.text (fun _ => True) (checkPattern c p) := by
  cases p with
  | identifier id => exact settled_checkName (h _ List.mem_cons_self)
  | object span properties =>
    exact settled_checkPatternProperties properties fun q hq => (h _ List.mem_cons_self).part hq
  | array span elements =>
    exact settled_checkPatterns elements fun q hq => (h _ List.mem_cons_self).part hq
  | rest span argument =>
    exact settled_checkPattern argument fun q hq => (h _ List.mem_cons_self).part hq
  | withDefault span left right =>
    exact settled_checkPattern left fun q hq =>
      (h _ List.mem_cons_self).part (List.mem_append_left _ hq)
  | member span object property computed isOptional =>
    unfold checkPattern
    split
    · trivial
    · exact (h _ List.mem_cons_self).isBoundary_start
  | hole => trivial

theorem settled_checkPatterns (patterns : List Pattern)
    (h : ground.Holds (plotsOfPatterns patterns)) :
    Settled ground.text (fun _ => True) (checkPatterns c patterns) := by
  match patterns with
  | [] => trivial
  | p :: rest =>
    obtain ⟨hp, hrest⟩ := List.forall_mem_append.mp h
    exact (settled_checkPattern p hp).bind fun _ _ => settled_checkPatterns rest hrest

theorem settled_checkPatternProperties (properties : List PatternProperty)
    (h : ground.Holds (plotsOfProperties properties)) :
    Settled ground.text (fun _ => True) (checkPatternProperties c properties) := by
  match properties with
  | [] => trivial
  | .property span key value shorthand computed :: rest =>
    obtain ⟨hproperty, hrest⟩ := List.forall_mem_cons.mp h
    exact (settled_checkPattern value (holds_patternProperty hproperty).2).bind fun _ _ =>
      settled_checkPatternProperties rest hrest
  | .rest span argument :: rest =>
    obtain ⟨hproperty, hrest⟩ := List.forall_mem_cons.mp h
    exact (settled_checkPattern argument fun q hq => hproperty.part hq).bind fun _ _ =>
      settled_checkPatternProperties rest hrest

end

theorem row_withoutParens (e : Expression) (h : e.plot.Fits ground) :
    Row ground e.plot.start [e.withoutParens.plot] e.plot.stop := by
  induction e using Expression.withoutParens.induct with
  | case1 span e ih => exact Row.replace h.row (ih (h.part List.mem_cons_self))
  | case2 e hne =>
    rw [Expression.withoutParens]
    · exact .single h
    · exact hne

theorem settled_parenthesizedTarget {e : Expression} (h : e.plot.Fits ground) :
    Settled ground.text (fun p : Pattern => Row ground e.plot.start p.plots e.plot.stop)
      (c.parenthesizedTarget e) := by
  have hinner := row_withoutParens e h
  unfold Conversion.parenthesizedTarget
  split
  · rename_i id _ heq
    rw [heq] at hinner
    exact (settled_checkName (hinner.fits _ List.mem_cons_self)).bind fun _ _ => hinner
  · rename_i heq
    rw [heq] at hinner
    exact hinner
  · exact settled_invalidTarget (fits_start h)

theorem settled_checkRest {span : Span} (hstart : IsBoundary ground.text span.start)
    (hstop : IsBoundary ground.text span.stop) (isLast : Bool) :
    Settled ground.text (fun _ => True) (c.checkRest span isLast) := by
  unfold Conversion.checkRest
  split
  · exact hstop
  · split
    · trivial
    · exact hstart

theorem settled_checkRestArgument {e : Expression} (h : e.plot.Fits ground) :
    Settled ground.text (fun _ => True) (c.checkRestArgument e) := by
  unfold Conversion.checkRestArgument
  split
  · split
    · trivial
    · exact fits_start h
  · trivial

theorem settled_noteKey {unique : Bool} {keys : List String} {key : Expression}
    (h : key.plot.Fits ground) : Settled ground.text (fun _ => True) (noteKey unique keys key) := by
  unfold noteKey
  split
  · trivial
  · split
    · exact fits_start h
    · trivial

/-- A pattern made of a value that reuses its key reuses it too. -/
theorem toPattern_reuses {value key : Expression} {target : Pattern} (h : value.reuses key = true)
    (htarget : toPattern c value = .ok target) : target.reuses key = true := by
  unfold Expression.reuses at h
  split at h
  · unfold toPattern at htarget
    split at htarget
    · unfold Conversion.parenthesizedTarget at htarget
      split at htarget
      · rename_i heq
        cases heq
        obtain ⟨_, -, htarget⟩ := except_bind_ok htarget
        cases htarget
        exact h
      · rename_i heq
        cases heq
      · cases htarget
    · obtain ⟨_, -, htarget⟩ := except_bind_ok htarget
      cases htarget
      exact h
  · unfold toPattern at htarget
    split at htarget
    · unfold Conversion.parenthesizedTarget at htarget
      split at htarget
      · rename_i heq
        cases heq
      · rename_i heq
        cases heq
      · cases htarget
    · split at htarget
      · obtain ⟨_, -, htarget⟩ := except_bind_ok htarget
        cases htarget
        exact h
      · cases htarget
  · cases h

/-- A rest element ends where its argument ends. -/
theorem row_rest {start : Nat} {e : Expression} {target : Pattern}
    (hstart : IsBoundary ground.text start)
    (hle : start ≤ e.plot.start) (he : e.plot.Fits ground)
    (htarget : Row ground e.plot.start target.plots e.plot.stop) :
    Row ground start (Pattern.rest ⟨start, e.span.stop⟩ target).plots e.plot.stop := by
  have hrow := (htarget.mono hle (Nat.le_refl _)).node hstart he.isBoundary_stop
  rwa [← Expression.plot_span e]

/-- A property whose value became a pattern. -/
theorem row_property {span : Span} {key value : Expression} {kind : PropertyKind}
    {method shorthand computed : Bool} {target : Pattern}
    (h : (ObjectMember.property span key value kind method shorthand computed).plot.Fits ground)
    (hfound : toPattern c value = .ok target)
    (htarget : Row ground value.plot.start target.plots value.plot.stop) :
    (PatternProperty.property span key target shorthand computed).plot.Fits ground := by
  have hparts : Row ground span.start
      (if shorthand && value.reuses key then [value.plot] else [key.plot, value.plot]) span.stop :=
    h.row
  refine .of_node h.isBoundary_start h.isBoundary_stop ?_
  split at hparts
  · rename_i hreuse
    obtain ⟨hshorthand, hreuse⟩ := Bool.and_eq_true_iff.mp hreuse
    rw [if_pos (Bool.and_eq_true_iff.mpr ⟨hshorthand, toPattern_reuses hreuse hfound⟩)]
    exact hparts.replace htarget
  · obtain ⟨hstart, hkey, hvalue⟩ := Row.cons_iff.mp hparts
    have hrow := (Row.single hkey).append (hvalue.replace htarget)
    split
    · exact (hvalue.replace htarget).mono (Nat.le_trans hstart hkey.le) (Nat.le_refl _)
    · exact hrow.mono hstart (Nat.le_refl _)

mutual

/-- The pattern that a literal becomes stands between the ends of the literal. -/
theorem settled_toPattern (e : Expression) (h : e.plot.Fits ground) :
    Settled ground.text (fun p : Pattern => Row ground e.plot.start p.plots e.plot.stop)
      (toPattern c e) := by
  have hparens := settled_parenthesizedTarget (c := c) h
  have hinvalid : Settled ground.text
    (fun p : Pattern => Row ground e.plot.start p.plots e.plot.stop)
      (Conversion.invalidTarget e.start) := settled_invalidTarget (fits_start h)
  unfold toPattern
  split
  · exact hparens
  · split
    · exact hparens
    · exact (settled_checkName h).bind fun _ _ => .single h
  · split
    · exact hparens
    · split
      · exact Row.single h
      · exact hinvalid
  · rename_i span elements
    split
    · exact hparens
    · refine (settled_toPatterns elements h.row).bind fun ps hps => ?_
      exact hps.node h.isBoundary_start h.isBoundary_stop
  · rename_i span members
    split
    · exact hparens
    · refine (settled_toProperties [] members h.row).bind fun ps hps => ?_
      exact hps.node h.isBoundary_start h.isBoundary_stop
  · split
    · exact hparens
    · split
      · refine (settled_checkPattern _ fun q hq =>
          h.part (List.mem_append_left _ hq)).bind fun _ _ => ?_
        exact Row.single h
      · exact hinvalid
  · exact hinvalid
termination_by sizeOf e

theorem settled_toPatterns (elements : List Element) {lo hi : Nat}
    (h : Row ground lo (plotsOfElements elements) hi) :
    Settled ground.text (fun ps => Row ground lo (plotsOfPatterns ps) hi)
      (toPatterns c elements) := by
  match elements with
  | [] => exact h
  | .hole :: rest => exact (settled_toPatterns rest h).bind fun ps hps => hps
  | .item e :: rest =>
    obtain ⟨hlo, he, hrest⟩ := Row.cons_iff.mp h
    refine (settled_toPattern e he).bind fun p hp =>
      (settled_toPatterns rest hrest).bind fun ps hps => ?_
    exact (hp.mono hlo (Nat.le_refl _)).append hps
  | .spread span e :: rest =>
    obtain ⟨hlo, hspread, hrest⟩ := Row.cons_iff.mp h
    obtain ⟨hstart, he, hstop⟩ := Row.cons_iff.mp hspread.row
    refine (settled_checkRest hspread.isBoundary_start hspread.isBoundary_stop _).bind fun _ _ =>
      (settled_checkRestArgument he).bind fun _ _ => (settled_toPattern e he).bind fun p hp =>
        (settled_toPatterns rest hrest).bind fun ps hps => ?_
    have hrest := row_rest hspread.isBoundary_start hstart he hp
    exact (hrest.mono hlo hstop.le).append hps
termination_by sizeOf elements

theorem settled_toProperties (keys : List String) (members : List ObjectMember) {lo hi : Nat}
    (h : Row ground lo (plotsOfMembers members) hi) :
    Settled ground.text (fun ps => Row ground lo (plotsOfProperties ps) hi)
      (toProperties c keys members) := by
  match members with
  | [] => exact h
  | .property span key value kind method shorthand computed :: rest =>
    obtain ⟨hlo, hproperty, hrest⟩ := Row.cons_iff.mp h
    obtain ⟨hkey, hvalue⟩ := fits_property hproperty
    have hothers : ∀ keys, Settled ground.text
      (fun ps => Row ground lo (plotsOfProperties ps) hi) (do
        let target ← toPattern c value
        return .property span key target shorthand computed :: (← toProperties c keys rest)) :=
      fun keys => (settled_toPattern value hvalue).noted.bind fun target htarget =>
        (settled_toProperties keys rest hrest).bind fun ps hps =>
          Row.cons_iff.mpr ⟨hlo, row_property hproperty htarget.1 htarget.2, hps⟩
    unfold toProperties
    split
    · exact settled_invalidTarget hproperty.isBoundary_start
    · split
      · exact hothers keys
      · exact (settled_noteKey hkey).bind fun keys _ => hothers keys
  | .spread span e :: rest =>
    obtain ⟨hlo, hspread, hrest⟩ := Row.cons_iff.mp h
    have he := hspread.part List.mem_cons_self
    unfold toProperties
    refine (settled_checkRest hspread.isBoundary_start hspread.isBoundary_stop _).bind fun _ _ =>
      (settled_toPattern e he).bind fun target htarget => ?_
    have hplot : (PatternProperty.rest span target).plot.Fits ground :=
      .of_node hspread.isBoundary_start hspread.isBoundary_stop (hspread.row.replace htarget)
    split
    · exact (settled_toProperties keys rest hrest).bind fun ps hps =>
        Row.cons_iff.mpr ⟨hlo, hplot, hps⟩
    · exact (settled_toProperties keys rest hrest).bind fun ps hps =>
        Row.cons_iff.mpr ⟨hlo, hplot, hps⟩
    · exact settled_invalidTarget (fits_start he)
termination_by sizeOf members

end

theorem settled_toRestPattern {start : Nat} {e : Expression} (hstart : IsBoundary ground.text start)
    (hle : start ≤ e.plot.start) (he : e.plot.Fits ground) :
    Settled ground.text (fun p : Pattern => Row ground start p.plots e.plot.stop)
      (toRestPattern c start e) :=
  (settled_checkRestArgument he).bind fun _ _ => (settled_toPattern e he).bind fun _ hp =>
    row_rest hstart hle he hp

end Patterns

end EcmaSyntax.Grammar
