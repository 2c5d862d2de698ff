import EcmaSyntax.Proofs.Spans.Anchors

/-!
How a parse lays out the plots of what it reads. While a phrase is read, the plots of its parts
stand in a row that starts with the phrase and reaches up to an edge: to the end of the last
token taken, to the start of the current one, or to its end. A step turns one row into another.
What lays something adds the plots of its result to any row; a row that a span is put around
becomes one plot. The rules below follow the steps of a phrase one by one.
-/

namespace EcmaSyntax.Grammar

open EcmaSyntax.Diagnostic EcmaSyntax.Lexer EcmaSyntax.Scope EcmaSyntax.Text EcmaSyntax.Tree
open Plotted

variable {version : Nat} [Unicode.IdentifierChars version]

variable {α β σ : Type} {ground : Ground} {lo : Nat} {row parts : List Plot} {taken : Bool}

/-- Where a row of plots ends in a state. -/
inductive Edge where
  /-- The end of the last token taken, if one was taken for the row, or else the start of the
  current token. -/
  | reached (taken : Bool)
  /-- The end of the current token. -/
  | beyond

def State.edge (s : State) : Edge → Nat
  | .reached true => s.previousEnd
  | .reached false => s.start
  | .beyond => s.lexer.cursor.offset

/-- The plots of what has been read from an offset on. -/
structure HasRow (ground : Ground) (lo : Nat) (row : List Plot) (edge : Edge) (s : State) :
    Prop where
  anchored : Anchored ground.text s
  isBoundary : IsBoundary ground.text lo
  row : Row ground lo row (s.edge edge)

/-- The step turns a row up to an edge into another row up to another edge. -/
def ChangesRow (ground : Ground) (lo : Nat) (row : List Plot) (edge : Edge) (step : Parser α)
    (row' : α → List Plot) (edge' : Edge) : Prop :=
  ∀ s, HasRow ground lo row edge s →
    Meets (AtBoundary ground.text) step (fun a s' => HasRow ground lo (row' a) edge' s') s

/-- The step adds what it reads to any row, and takes a token. -/
class AddsToRow (ground : Ground) [Plotted α] (step : Parser α) : Prop where
  addsToRow : ∀ lo row taken,
    ChangesRow ground lo row (.reached taken) step (fun a => row ++ plots a) (.reached true)

/-- The step adds what it reads to any row, if it reads anything. -/
class MayAddToRow (ground : Ground) [Plotted α] (step : Parser α) : Prop where
  addsToRow : ∀ lo row taken,
    ChangesRow ground lo row (.reached taken) step (fun a => row ++ plots a) (.reached taken)

/-- The plots of something fit in the text. -/
class Lies (ground : Ground) [Plotted α] (a : α) : Prop where
  fits : ground.Holds (plots a)

/-- The step fails, and at a boundary. -/
class Refuses (text : List Char) (step : Parser α) : Prop where
  refuses : ∀ s, Anchored text s → Meets (AtBoundary text) step (fun _ _ => False) s

/-- What a check or a conversion finds, or that it fails at a boundary. -/
def Settled (text : List Char) (Q : α → Prop) : Except Failure α → Prop
  | .ok a => Q a
  | .error failure => AtBoundary text failure

namespace Settled

variable {text : List Char} {Q : α → Prop} {P : β → Prop} {found : Except Failure α}

theorem bind {rest : α → Except Failure β} (h : Settled text Q found)
    (hrest : ∀ a, Q a → Settled text P (rest a)) : Settled text P (found >>= rest) := by
  cases found with
  | ok a => exact hrest a h
  | error failure => exact h

theorem mono (h : Settled text Q found) {P : α → Prop} (hP : ∀ a, Q a → P a) :
    Settled text P found := by
  cases found with
  | ok a => exact hP a h
  | error failure => exact h

/-- What is found is known with it. -/
theorem noted (h : Settled text Q found) : Settled text (fun a => found = .ok a ∧ Q a) found := by
  cases found with
  | ok a => exact ⟨rfl, h⟩
  | error failure => exact h

theorem refuse {offset : Nat} (h : IsBoundary text offset) (fault : Option Cause) :
    Settled text (fun _ => True) (Grammar.refuse offset fault) := by
  cases fault with
  | none => trivial
  | some cause => exact h

end Settled

section States

variable {s s' : State} {edge : Edge} {hi : Nat}

theorem Anchored.edge_le (h : Anchored ground.text s) : s.edge (.reached taken) ≤ s.start := by
  cases taken with
  | true => exact h.previousEnd
  | false => exact Nat.le_refl _

theorem Anchored.edge_le_stop (h : Anchored ground.text s) (edge : Edge) :
    s.edge edge ≤ s.lexer.cursor.offset := by
  cases edge with
  | reached taken => exact Nat.le_trans h.edge_le h.start_le_stop
  | beyond => exact Nat.le_refl _

theorem Onward.edge_le (h : Onward ground.text s s') :
    s.edge (.reached taken) ≤ s'.edge (.reached taken) := by
  cases taken with
  | true => exact h.previousEnd_le
  | false => exact h.start_le

theorem HasRow.onward (h : HasRow ground lo row (.reached taken) s) (h' : Onward ground.text s s') :
    HasRow ground lo row (.reached taken) s' :=
  ⟨h'.anchored, h.isBoundary, h.row.mono (Nat.le_refl _) h'.edge_le⟩

theorem HasRow.treads {step : Parser α} [h : Treads ground.text step]
    (hlaid : HasRow ground lo row (.reached taken) s) : Meets (AtBoundary ground.text) step
      (fun _ s' => HasRow ground lo row (.reached taken) s') s :=
  (h.treads s hlaid.anchored).mono fun _ _ => hlaid.onward

/-- Whatever the row goes up to, it goes up to the end of the token that is taken. -/
theorem HasRow.surpasses {step : Parser α} [hstep : Surpasses ground.text step]
    (h : HasRow ground lo row edge s) : Meets (AtBoundary ground.text) step
      (fun _ s' => HasRow ground lo row (.reached true) s') s :=
  (hstep.treads s h.anchored).mono fun _ _ h' => ⟨h'.1.anchored, h.isBoundary,
    h.row.mono (Nat.le_refl _) (Nat.le_trans (h.anchored.edge_le_stop edge) h'.2)⟩

theorem HasRow.changesRow {step : Parser α} {row' : α → List Plot} {edge' : Edge}
    (h : HasRow ground lo row edge s) (hstep : ChangesRow ground lo row edge step row' edge') :
    Meets (AtBoundary ground.text) step (fun a s' => HasRow ground lo (row' a) edge' s') s :=
      hstep s h

theorem HasRow.lies (h : HasRow ground lo row edge s) [Plotted α] {a : α}
    (hsub : (plots a).Sublist row) : Lies ground a := ⟨(h.row.sublist hsub).fits⟩

/-- The start of the current token becomes a part of the row. -/
theorem HasRow.mark (h : HasRow ground lo row (.reached taken) s) :
    HasRow ground lo (row ++ [.point s.start]) (.reached false) s := by
  have hstart := h.anchored.isBoundary_start
  exact ⟨h.anchored, h.isBoundary, Row.point_iff.mpr
    ⟨h.row.mono (Nat.le_refl _) h.anchored.edge_le, hstart, .nil (Nat.le_refl _)⟩⟩

/-- A row up to the end of the last token goes up to the start of the current one. -/
theorem HasRow.loosen (h : HasRow ground lo row (.reached true) s) :
    HasRow ground lo row (.reached taken) s := by
  refine ⟨h.anchored, h.isBoundary, h.row.mono (Nat.le_refl _) ?_⟩
  cases taken with
  | true => exact Nat.le_refl _
  | false => exact h.anchored.previousEnd

end States

section Refusals

instance (priority := low) {text : List Char} {step : Parser α} [h : Refuses text step] :
    Surpasses text step := ⟨fun s hs => (h.refuses s hs).mono fun _ _ => False.elim⟩

instance {text : List Char} {cause : Cause} {offset : Nat} [h : Bounds text offset] :
    Refuses text (failAt cause offset : Parser α) := ⟨fun _ _ => h.isBoundary⟩

instance {text : List Char} {cause : Cause} : Refuses text (fail cause : Parser α) :=
  ⟨fun _ hs => hs.isBoundary_start⟩

instance {text : List Char} : Refuses text (unexpected : Parser α) :=
  ⟨fun _ hs => hs.isBoundary_start⟩

instance {text : List Char} {step : Parser α} {rest : α → Parser β} [h : Refuses text step] :
    Refuses text (step >>= rest) :=
  ⟨fun s hs => (h.refuses s hs).bind fun _ _ => False.elim⟩

instance {text : List Char} {step : Parser α} {rest : α → Parser β} [h : Treads text step]
    [hrest : ∀ a, Refuses text (rest a)] : Refuses text (step >>= rest) :=
  ⟨fun s hs => (h.treads s hs).bind fun a s' hs' => (hrest a).refuses s' hs'.anchored⟩

instance {text : List Char} {c : Prop} [Decidable c] {first second : Parser α}
    [Refuses text first] [Refuses text second] : Refuses text (if c then first else second) := by
  split <;> infer_instance

end Refusals

namespace ChangesRow

variable {edge edge' edge₁ : Edge} {step : Parser α} {rest : α → Parser β} {row' : β → List Plot}

theorem bind {row₁ : α → List Plot} (h : ChangesRow ground lo row edge step row₁ edge₁)
    (hrest : ∀ a, ChangesRow ground lo (row₁ a) edge₁ (rest a) row' edge') :
    ChangesRow ground lo row edge (step >>= rest) row' edge' :=
  fun s hs => (h s hs).bind fun a s' hs' => hrest a s' hs'

/-- Something is known of the result besides its row. -/
theorem bindKnown {P : α → Prop} {row₁ : α → List Plot} (hP : ∀ s, Yields step (fun a _ => P a) s)
    (h : ChangesRow ground lo row edge step row₁ edge₁)
    (hrest : ∀ a, P a → ChangesRow ground lo (row₁ a) edge₁ (rest a) row' edge') :
    ChangesRow ground lo row edge (step >>= rest) row' edge' :=
  fun s hs => ((h s hs).and (hP s)).bind fun a s' hs' => hrest a hs'.2 s' hs'.1

/-- A row that is made anew from itself. -/
theorem reshape {step : Parser β} (hrow : ∀ hi, Row ground lo row hi → Row ground lo parts hi)
    (h : ChangesRow ground lo parts edge step row' edge') :
      ChangesRow ground lo row edge step row' edge' :=
  fun s hs => h s ⟨hs.anchored, hs.isBoundary, hrow _ hs.row⟩

/-- Plots that are not needed any more. -/
theorem drop {step : Parser β} (hsub : parts.Sublist row)
    (h : ChangesRow ground lo parts edge step row' edge') :
      ChangesRow ground lo row edge step row' edge' :=
  h.reshape fun _ hrow => hrow.sublist hsub

/-- The plots of the row fit. -/
theorem known {step : Parser β} [Plotted α] {a : α} (hsub : (plots a).Sublist row)
    (h : Lies ground a → ChangesRow ground lo row edge step row' edge') :
    ChangesRow ground lo row edge step row' edge' :=
  fun s hs => h (hs.lies hsub) s hs

theorem bounds {step : Parser β} (h : Bounds ground.text lo →
    ChangesRow ground lo row edge step row' edge') :
    ChangesRow ground lo row edge step row' edge' := fun s hs => h ⟨hs.isBoundary⟩ s hs

theorem pure {a : β} (h : row' a = row) : ChangesRow ground lo row edge (Pure.pure a) row' edge :=
  fun _ hs => .pure (h ▸ hs)

/-- What is given is no step. -/
theorem given {a : α} (h : ChangesRow ground lo row edge (rest a) row' edge') :
    ChangesRow ground lo row edge (Pure.pure a >>= rest) row' edge' := fun s hs => .run rfl (h s hs)

theorem refuse {step : Parser β} [h : Refuses ground.text step] :
    ChangesRow ground lo row edge step row' edge' :=
  fun s hs => (h.refuses s hs.anchored).mono fun _ _ => False.elim

/-- A check that fails or lets the rest of the phrase be read. -/
theorem guard {c : Prop} [Decidable c] {failing rest : Parser β} [Refuses ground.text failing]
    (h : ¬c → ChangesRow ground lo row edge rest row' edge') :
    ChangesRow ground lo row edge (if c then failing else rest) row' edge' := by
  split
  · exact .refuse
  · rename_i hc
    exact h hc

theorem ite {c : Prop} [Decidable c] {first second : Parser β}
    (hfirst : c → ChangesRow ground lo row edge first row' edge')
    (hsecond : ¬c → ChangesRow ground lo row edge second row' edge') :
    ChangesRow ground lo row edge (if c then first else second) row' edge' := by
  split
  · rename_i hc
    exact hfirst hc
  · rename_i hc
    exact hsecond hc

section Steps

/-- A step that reads nothing that is kept. -/
theorem skip [Treads ground.text step]
    (hrest : ∀ a, ChangesRow ground lo row (.reached taken) (rest a) row' edge') :
    ChangesRow ground lo row (.reached taken) (step >>= rest) row' edge' :=
  fun _ hs => hs.treads.bind fun a s' hs' => hrest a s' hs'

/-- A step that is only taken sometimes. -/
theorem maybe {c : Prop} [Decidable c] {step : Parser PUnit} {rest : PUnit → Parser β}
    [Treads ground.text step] (hrest : ChangesRow ground lo row (.reached taken)
    (rest ()) row' edge') :
    ChangesRow ground lo row (.reached taken) (if c then step >>= rest else rest ()) row' edge' :=
  ite (fun _ => skip fun _ => hrest) fun _ => hrest

/-- What is found in one of two ways. -/
theorem either {c : Prop} [Decidable c] {first second : Parser α} [Treads ground.text first]
    [Treads ground.text second]
    (hrest : ∀ a, ChangesRow ground lo row (.reached taken) (rest a) row' edge') :
    ChangesRow ground lo row (.reached taken)
      (if c then first >>= rest else second >>= rest) row' edge' :=
  ite (fun _ => skip hrest) fun _ => skip hrest

/-- The current token is taken, and more than that perhaps. -/
theorem take [Surpasses ground.text step]
    (hrest : ∀ a, ChangesRow ground lo row (.reached true) (rest a) row' edge') :
    ChangesRow ground lo row edge (step >>= rest) row' edge' :=
  fun _ hs => hs.surpasses.bind fun a s' hs' => hrest a s' hs'

theorem look [h : Looks step] (hrest : ∀ a, ChangesRow ground lo row edge (rest a) row' edge') :
    ChangesRow ground lo row edge (step >>= rest) row' edge' := by
  intro s hs
  obtain ⟨a, ha⟩ := h.looks s
  exact .run ha (hrest a s hs)

theorem state {rest : State → Parser β}
    (hrest : ∀ t, Anchored ground.text t → ChangesRow ground lo row edge (rest t) row' edge') :
    ChangesRow ground lo row edge (get >>= rest) row' edge' :=
  fun s hs => .run rfl (hrest s hs.anchored s hs)

/-- The start of the current token is remembered for errors. -/
theorem here {rest : Nat → Parser β}
    (hrest : ∀ start, Bounds ground.text start →
      ChangesRow ground lo row edge (rest start) row' edge') :
    ChangesRow ground lo row edge (currentStart >>= rest) row' edge' :=
  fun s hs => .run rfl (hrest s.start ⟨hs.anchored.isBoundary_start⟩ s hs)

variable [Plotted α]

theorem lay [h : AddsToRow ground step] (hrest : ∀ a, Lies ground a →
      ChangesRow ground lo (row ++ plots a) (.reached true) (rest a) row' edge') :
    ChangesRow ground lo row (.reached taken) (step >>= rest) row' edge' :=
  (h.addsToRow lo row taken).bind fun a => known (List.sublist_append_right row _) (hrest a)

theorem mayAddToRow [h : MayAddToRow ground step] (hrest : ∀ a, Lies ground a →
      ChangesRow ground lo (row ++ plots a) (.reached taken) (rest a) row' edge') :
    ChangesRow ground lo row (.reached taken) (step >>= rest) row' edge' :=
  (h.addsToRow lo row taken).bind fun a => known (List.sublist_append_right row _) (hrest a)

/-- What is laid in one of two ways. -/
theorem branch {c : Prop} [Decidable c] {first second : Parser α} [AddsToRow ground first]
    [AddsToRow ground second] (hrest : ∀ a, Lies ground a →
      ChangesRow ground lo (row ++ plots a) (.reached true) (rest a) row' edge') :
    ChangesRow ground lo row (.reached taken)
      (if c then first >>= rest else second >>= rest) row' edge' :=
  ite (fun _ => lay hrest) fun _ => lay hrest

theorem mayBranch {c : Prop} [Decidable c] {first second : Parser α} [MayAddToRow ground first]
    [MayAddToRow ground second] (hrest : ∀ a, Lies ground a →
      ChangesRow ground lo (row ++ plots a) (.reached taken) (rest a) row' edge') :
    ChangesRow ground lo row (.reached taken)
      (if c then first >>= rest else second >>= rest) row' edge' :=
  ite (fun _ => mayAddToRow hrest) fun _ => mayAddToRow hrest

theorem last [Plotted β] {step : Parser β} [h : AddsToRow ground step]
    (hrow : ∀ a, row' a = row ++ plots a) :
    ChangesRow ground lo row (.reached taken) step row' (.reached true) := by
  rw [funext hrow]
  exact h.addsToRow lo row taken

end Steps

section Spans

/-- The start of the current token becomes a part of the row. -/
theorem mark {rest : Nat → Parser β} (hrest : ∀ start, Bounds ground.text start →
      ChangesRow ground lo (row ++ [.point start]) (.reached false) (rest start) row' edge') :
    ChangesRow ground lo row (.reached taken) (currentStart >>= rest) row' edge' :=
  fun s hs => .run rfl (hrest s.start ⟨hs.anchored.isBoundary_start⟩ s hs.mark)

/-- The span of everything in the row. -/
theorem frame {rest : Span → Parser β} (hrest : ∀ span,
      ChangesRow ground lo [.node span row] (.reached true) (rest span) row' edge') :
    ChangesRow ground lo row (.reached true) (spanFrom lo >>= rest) row' edge' :=
  fun s hs => .run rfl (hrest ⟨lo, s.previousEnd⟩ s ⟨hs.anchored, hs.isBoundary,
    hs.row.node hs.isBoundary hs.anchored.isBoundary_previousEnd⟩)

theorem frameDecorator {rest : Span → Parser β} (hallowed : ground.decorated) (hrest : ∀ span,
      ChangesRow ground lo [.decorator span row] (.reached true) (rest span) row' edge') :
    ChangesRow ground lo row (.reached true) (spanFrom lo >>= rest) row' edge' :=
  fun s hs => .run rfl (hrest ⟨lo, s.previousEnd⟩ s ⟨hs.anchored, hs.isBoundary,
    hs.row.decorator hs.isBoundary hs.anchored.isBoundary_previousEnd hallowed⟩)

/-- The span of everything in the row and the current token. -/
theorem through {rest : Span → Parser β} (hrest : ∀ span,
      ChangesRow ground lo [.node span row] .beyond (rest span) row' edge') :
    ChangesRow ground lo row edge (spanThrough lo >>= rest) row' edge' :=
  fun s hs => .run rfl (hrest ⟨lo, s.lexer.cursor.offset⟩ s ⟨hs.anchored, hs.isBoundary,
    (hs.row.mono (Nat.le_refl _) (hs.anchored.edge_le_stop edge)).node hs.isBoundary
      hs.anchored.isBoundary_stop⟩)

/-- The span of what stands behind a remembered start. -/
theorem fold {rest : Span → Parser β} {start : Nat} (hrest : ∀ span,
      ChangesRow ground lo (row ++ [.node span parts]) (.reached true) (rest span) row' edge') :
    ChangesRow ground lo (row ++ [.point start] ++ parts) (.reached true)
      (spanFrom start >>= rest) row'
      edge' := by
  rw [List.append_assoc]
  exact fun s hs => .run rfl (hrest ⟨start, s.previousEnd⟩ s ⟨hs.anchored, hs.isBoundary,
    hs.row.fold hs.anchored.isBoundary_previousEnd⟩)

/-- The span of what stands behind a remembered start and the current token. -/
theorem foldThrough {rest : Span → Parser β} {start : Nat} (hrest : ∀ span,
      ChangesRow ground lo (row ++ [.node span parts]) .beyond (rest span) row' edge') :
    ChangesRow ground lo (row ++ [.point start] ++ parts) edge
      (spanThrough start >>= rest) row' edge' := by
  rw [List.append_assoc]
  exact fun s hs => .run rfl (hrest ⟨start, s.lexer.cursor.offset⟩ s ⟨hs.anchored, hs.isBoundary,
    (hs.row.mono (Nat.le_refl _) (hs.anchored.edge_le_stop edge)).fold hs.anchored.isBoundary_stop⟩)

/-- The span from a remembered start to the current token. -/
theorem gap {rest : Nat → Parser β} {start : Nat} (hrest : ∀ stop,
      ChangesRow ground lo (row ++ [.leaf ⟨start, stop⟩]) (.reached false) (rest stop) row' edge') :
    ChangesRow ground lo (row ++ [.point start]) (.reached taken)
      (currentStart >>= rest) row' edge' :=
  fun s hs => .run rfl (hrest s.start s ⟨hs.anchored, hs.isBoundary,
    (hs.row.mono (Nat.le_refl _) hs.anchored.edge_le).fold hs.anchored.isBoundary_start⟩)

/-- What is done with the row behind a remembered start. -/
theorem within {step : Parser β} {start : Nat}
    (h : ChangesRow ground start parts edge step row' edge') :
    ChangesRow ground lo (row ++ [.point start] ++ parts) edge step
      (fun a => row ++ row' a) edge' := by
  intro s hs
  rw [List.append_assoc] at hs
  obtain ⟨hrow, hstart, hparts⟩ := Row.point_iff.mp hs.row
  exact (h s ⟨hs.anchored, hstart, hparts⟩).mono fun a s' hs' =>
    ⟨hs'.anchored, hs.isBoundary, hrow.append hs'.row⟩

/-- The span of the current token. -/
theorem token {rest : State → Parser β} (hrest : ∀ t, Anchored ground.text t →
      ChangesRow ground lo (row ++ [.leaf t.lexer.span]) .beyond (rest t) row' edge') :
    ChangesRow ground lo row (.reached taken) (get >>= rest) row' edge' := by
  intro s hs
  have hleaf : (Plot.leaf s.lexer.span).Fits ground :=
    .of_leaf hs.anchored.isBoundary_start hs.anchored.isBoundary_stop hs.anchored.start_le_stop
  exact .run rfl (hrest s hs.anchored s ⟨hs.anchored, hs.isBoundary,
    (hs.row.mono (Nat.le_refl _) hs.anchored.edge_le).append (.single hleaf)⟩)

end Spans

/-- A row that is made anew from itself, if that succeeds. -/
theorem convert {found : Except Failure β}
    (h : ∀ hi, Row ground lo row hi → Settled ground.text
    (fun b => Row ground lo (row' b) hi) found) :
    ChangesRow ground lo row edge (ofExcept found) row' edge := by
  intro s hs
  have hfound := h _ hs.row
  cases found with
  | ok b => exact .pure ⟨hs.anchored, hs.isBoundary, hfound⟩
  | error failure => exact hfound

theorem nested {phrase : Parser β} (h :
    ChangesRow ground lo row (.reached taken) phrase row' (.reached true)) :
    ChangesRow ground lo row (.reached taken) (Grammar.nested phrase) row' (.reached true) :=
  skip fun _ => h.bind fun _ => skip fun _ => pure rfl

/-- A scope is opened for the phrase and closed behind it. -/
theorem inScope {phrase : Parser β} {roles : List Role} {edge : Edge}
    (h : ChangesRow ground lo row edge phrase row' edge') :
    ChangesRow ground lo row edge (Grammar.inScope roles phrase) row' edge' := by
  intro s hs
  unfold Grammar.inScope
  refine .run rfl ((h _ ⟨hs.anchored.setScopes (hs.anchored.scopes.push roles), hs.isBoundary,
    ?_⟩).bind fun a s' hs' => .run rfl (.pure ⟨hs'.anchored.setScopes hs'.anchored.scopes.pop,
      hs'.isBoundary, ?_⟩))
  · cases edge with
    | reached taken => cases taken <;> exact hs.row
    | beyond => exact hs.row
  · cases edge' with
    | reached taken => cases taken <;> exact hs'.row
    | beyond => exact hs'.row

/-- The marks of `yield` and `await` are set back behind the phrase. -/
theorem asFunction {phrase : Parser β}
    (h : ChangesRow ground lo row (.reached taken) phrase row' (.reached true)) :
    ChangesRow ground lo row (.reached taken) (Grammar.asFunction phrase) row' (.reached true) := by
  intro s hs
  obtain ⟨hstands, hrecalls, hend, hyield, hawait, hname, hscopes, hprivate, hexports⟩ :=
    hs.anchored
  unfold Grammar.asFunction
  have hstart : Anchored ground.text { s with
      labels := []
      labelChain := none
      lastYield := none
      lastAwait := none
      lastAwaitName := none } :=
    ⟨⟨hstands.situated, hstands.previousEnd⟩, hrecalls, hend, nofun, nofun, nofun,
      hscopes, hprivate, hexports⟩
  refine .run rfl (.run rfl ((h _ ⟨hstart, hs.isBoundary, ?_⟩).bind fun a s' hs' =>
    .run rfl (.pure ⟨?_, hs'.isBoundary, hs'.row⟩)))
  · cases taken <;> exact hs.row
  · exact ⟨⟨hs'.anchored.situated, hs'.anchored.previousEnd⟩, hs'.anchored.recalls,
      hs'.anchored.isBoundary_previousEnd, hyield, hawait, hname, hs'.anchored.scopes,
      hs'.anchored.privateNames, hs'.anchored.exports⟩

end ChangesRow

section Phrases

variable [Plotted α] [Plotted β]

/-- A phrase lays out a row of its own, which is added to the row around it. -/
theorem HasRow.append {s : State} {step : Parser α} (hs : HasRow ground lo row (.reached taken) s)
    (h : HasRow ground s.start [] (.reached false) s → Meets (AtBoundary ground.text) step
      (fun a s' => HasRow ground s.start (plots a) (.reached true) s') s) :
    Meets (AtBoundary ground.text) step
      (fun a s' => HasRow ground lo (row ++ plots a) (.reached true) s') s := by
  refine (h ⟨hs.anchored, hs.anchored.isBoundary_start, .nil (Nat.le_refl _)⟩).mono
    fun a s' hs' => ⟨hs'.anchored, hs.isBoundary, ?_⟩
  exact (hs.row.mono (Nat.le_refl _) hs.anchored.edge_le).append hs'.row

theorem AddsToRow.intro {step : Parser α} (h : ∀ s, HasRow ground s.start [] (.reached false) s →
      Meets (AtBoundary ground.text) step
        (fun a s' => HasRow ground s.start (plots a) (.reached true) s') s) :
          AddsToRow ground step :=
  ⟨fun _ _ _ s hs => hs.append (h s)⟩

theorem AddsToRow.fresh {rest : Nat → Parser α} (h : ∀ start, Bounds ground.text start →
      ChangesRow ground start [] (.reached false) (rest start) plots (.reached true)) :
    AddsToRow ground (currentStart >>= rest) :=
  .intro fun s hs => .run rfl (h s.start ⟨hs.isBoundary⟩ s hs)

/-- A phrase that looks at its first token first. -/
theorem AddsToRow.freshToken {rest : State → Parser α} (h : ∀ t : State, Anchored ground.text t →
      Bounds ground.text t.start →
      ChangesRow ground t.start [.leaf t.lexer.span] .beyond (rest t) plots (.reached true)) :
    AddsToRow ground (get >>= rest) := by
  refine .intro fun s hs => .run rfl (h s hs.anchored ⟨hs.isBoundary⟩ s ?_)
  have hleaf : (Plot.leaf s.lexer.span).Fits ground :=
    .of_leaf hs.anchored.isBoundary_start hs.anchored.isBoundary_stop hs.anchored.start_le_stop
  exact ⟨hs.anchored, hs.isBoundary, .single hleaf⟩

theorem AddsToRow.mayAddToRow {step : Parser α} (h : AddsToRow ground step) :
    MayAddToRow ground step :=
  ⟨fun lo row taken s hs => (h.addsToRow lo row taken s hs).mono fun _ _ => HasRow.loosen⟩

instance (priority := low) {step : Parser α} [h : AddsToRow ground step] :
    MayAddToRow ground step := h.mayAddToRow

instance AddsToRow.skip {step : Parser σ} {rest : σ → Parser α} [Treads ground.text step]
    [h : ∀ a, AddsToRow ground (rest a)] : AddsToRow ground (step >>= rest) :=
  ⟨fun lo row taken => .skip fun a => (h a).addsToRow lo row taken⟩

instance MayAddToRow.skip {step : Parser σ} {rest : σ → Parser α} [Treads ground.text step]
    [h : ∀ a, MayAddToRow ground (rest a)] : MayAddToRow ground (step >>= rest) :=
  ⟨fun lo row taken => .skip fun a => (h a).addsToRow lo row taken⟩

instance {c : Prop} [Decidable c] {first second : Parser α} [AddsToRow ground first]
    [AddsToRow ground second] : AddsToRow ground (if c then first else second) := by
  split <;> infer_instance

instance {c : Prop} [Decidable c] {first second : Parser α} [MayAddToRow ground first]
    [MayAddToRow ground second] : MayAddToRow ground (if c then first else second) := by
  split <;> infer_instance

instance {step : Parser α} [Refuses ground.text step] : AddsToRow ground step :=
  ⟨fun _ _ _ => .refuse⟩

theorem MayAddToRow.nothing {a : α} (h : plots a = []) : MayAddToRow ground (pure a : Parser α) :=
  ⟨fun lo row taken => .pure (by rw [h, List.append_nil])⟩

instance : MayAddToRow ground (pure [] : Parser (List α)) := .nothing rfl
instance : MayAddToRow ground (pure none : Parser (Option α)) := .nothing rfl

/-- What ends with a token that has to stand there. -/
instance AddsToRow.closed {step : Parser α} {close : Parser Unit} [MayAddToRow ground step]
    [Surpasses ground.text close] : AddsToRow ground (do
      let a ← step
      close
      return a) := ⟨fun _ _ _ => .mayAddToRow fun _ _ => .take fun _ => .pure rfl⟩

/-- A result that is made of another and holds the same nodes. -/
theorem AddsToRow.give {step : Parser α} [h : AddsToRow ground step] {f : α → β}
    (hf : ∀ a, plots (f a) = plots a) : AddsToRow ground (step >>= fun a => pure (f a)) :=
  ⟨fun lo row taken => .lay fun a _ => .pure (by rw [hf])⟩

theorem AddsToRow.map {step : Parser α} [h : AddsToRow ground step] {f : α → β}
    (hf : ∀ a, plots (f a) = plots a) :
    AddsToRow ground (f <$> step) := by
  refine ⟨fun lo row taken s hs => .map ((h.addsToRow lo row taken s hs).mono fun a s' hs' => ?_)⟩
  dsimp only
  rwa [hf]

instance {step : Parser α} [h : AddsToRow ground step] : AddsToRow ground (some <$> step) :=
    .map fun _ => rfl

instance AddsToRow.nested {step : Parser α} [h : AddsToRow ground step] :
    AddsToRow ground (Grammar.nested step) :=
  ⟨fun lo row taken => .nested (h.addsToRow lo row taken)⟩

instance {step : Parser α} {roles : List Role} [h : AddsToRow ground step] :
    AddsToRow ground (inScope roles step) :=
      ⟨fun lo row taken => .inScope (h.addsToRow lo row taken)⟩

end Phrases

section Loops

/-- A loop where something is known of the items and the state before each round. -/
theorem meets_collectAfter {text : List Char} {round : List α → Parser (Round α)}
    {I Q : List α → State → Prop} (hanchored : ∀ earlier s, I earlier s → Anchored text s)
    (h : ∀ earlier s, I earlier s → Meets (AtBoundary text) (round earlier) (fun r s' =>
      match r with
      | .stop => Q earlier.reverse s'
      | .last item => Q (earlier.reverse ++ [item]) s'
      | .more item => I (item :: earlier) s') s)
    (fuel : Nat) : ∀ earlier s, I earlier s →
      Meets (AtBoundary text) (Grammar.collectAfter round fuel earlier) Q s := by
  induction fuel with
  | zero => exact fun earlier s hearlier => (hanchored earlier s hearlier).isBoundary_start
  | succ fuel ih =>
    intro earlier s hearlier
    unfold Grammar.collectAfter
    refine (h earlier s hearlier).bind fun r s' hr => ?_
    cases r with
    | stop => exact .pure hr
    | last item => exact .pure (List.reverse_cons ▸ hr)
    | more item => exact ih (item :: earlier) s' hr

variable [Plotted α]

/-- A round has the plots of the item that it found. -/
instance : Plotted (Round α) where
  plots
    | .stop => []
    | .last item => plots item
    | .more item => plots item

@[simp] theorem plots_stop : plots (.stop : Round α) = [] := rfl

@[simp] theorem plots_last (a : α) : plots (Round.last a) = plots a := rfl

@[simp] theorem plots_more (a : α) : plots (Round.more a) = plots a := rfl

/-- A loop where something is known of the items before each round. -/
theorem ChangesRow.collectAfter {round : List α → Parser (Round α)} {I : List α → Prop}
    (h : ∀ earlier row s, I earlier → HasRow ground lo row (.reached taken) s →
      Meets (AtBoundary ground.text) (round earlier) (fun r s' =>
        (∀ item, r = .more item → I (item :: earlier)) ∧
          HasRow ground lo (row ++ plots r) (.reached taken) s') s)
    (fuel : Nat) (hnil : I []) : ChangesRow ground lo row (.reached taken)
      (Grammar.collectAfter round fuel []) (fun items => row ++ plots items) (.reached taken) := by
  intro s hs
  refine meets_collectAfter
    (I := fun earlier s => I earlier ∧ HasRow ground lo (row ++ plots earlier.reverse)
      (.reached taken) s)
    (fun _ _ hearlier => hearlier.2.anchored) (fun earlier s hearlier => ?_) fuel [] s
    ⟨hnil, by simpa using hs⟩
  refine (h earlier _ s hearlier.1 hearlier.2).mono fun r s' hr => ?_
  obtain ⟨hmore, hlaid⟩ := hr
  cases r with
  | stop => simpa using hlaid
  | last item => simpa using hlaid
  | more item => exact ⟨hmore item rfl, by simpa using hlaid⟩

instance MayAddToRow.collect {g : Phrases} {round : List α → Parser (Round α)}
    [h : ∀ earlier, MayAddToRow ground (round earlier)] : MayAddToRow ground (g.collect round) :=
  ⟨fun lo _ taken => ChangesRow.collectAfter (I := fun _ => True)
    (fun earlier row s _ hs => ((h earlier).addsToRow lo row taken s hs).mono fun _ _ hr =>
      ⟨fun _ _ => trivial, hr⟩) g.size trivial⟩

instance : MayAddToRow ground (pure .stop : Parser (Round α)) := .nothing rfl

instance {g : Phrases} {close : Token} {item : List α → Parser α}
    [h : ∀ earlier, AddsToRow ground (item earlier)] :
      MayAddToRow ground (g.listed close item) := by
  refine MayAddToRow.collect (h := fun earlier => .skip (h := fun atClose => ?_))
  split
  · infer_instance
  · exact AddsToRow.mayAddToRow ⟨fun lo row taken => .lay fun a _ => .skip fun _ => .pure rfl⟩

instance {g : Phrases} {close : Token} {item : Parser α} [h : AddsToRow ground item] :
    MayAddToRow ground (g.itemsUpTo close item) := by
  refine MayAddToRow.collect (h := fun earlier => .skip (h := fun atClose => ?_))
  split
  · infer_instance
  · exact AddsToRow.mayAddToRow ⟨fun lo row taken => .skip fun atEnd => .guard fun _ =>
      .lay fun a _ => .pure rfl⟩

/-- What a round makes of a value stands where the value stood. -/
theorem ChangesRow.iterate {round : α → Parser (Option α)}
    (h : ∀ a, Lies ground a → ChangesRow ground lo (plots a) (.reached true) (round a)
      (fun found => plots (found.getD a)) (.reached true)) (fuel : Nat) (a : α) :
    ChangesRow ground lo (plots a) (.reached true) (Grammar.iterate round fuel a) plots
      (.reached true) := by
  induction fuel generalizing a with
  | zero =>
    unfold Grammar.iterate
    exact .refuse
  | succ fuel ih =>
    unfold Grammar.iterate
    refine (ChangesRow.known (List.Sublist.refl _) (h a)).bind fun found => ?_
    cases found with
    | some b => exact ih b
    | none => exact .pure rfl

end Loops

end EcmaSyntax.Grammar
