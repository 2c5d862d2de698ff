import EcmaSyntax.Proofs.Text.Boundary
import EcmaSyntax.Proofs.Tree.Plots

/-!
Rows of plots. The plots of a row stand one after the other between two offsets. A plot fits in its
text if it starts and ends between characters and its parts are a row between its ends that fit
themselves, so that in the whole tree below it spans are nested. Taking a plot out of a row leaves
a row, and what stands behind an offset of a row can be made the parts of one plot.
-/

namespace EcmaSyntax.Tree

open EcmaSyntax.Text

/-- A text to be divided into plots, and whether there may be decorators in it. -/
structure Ground where
  text : List Char
  decorated : Prop

/-- The plots follow each other between two offsets. -/
def InOrder : Nat → List Plot → Nat → Prop
  | lo, [], hi => lo ≤ hi
  | lo, p :: rest, hi => lo ≤ p.start ∧ p.start ≤ p.stop ∧ InOrder p.stop rest hi

namespace InOrder

variable {lo hi mid : Nat} {row first second parts : List Plot}

theorem le (h : InOrder lo row hi) : lo ≤ hi := by
  induction row generalizing lo with
  | nil => exact h
  | cons p rest ih => exact Nat.le_trans h.1 (Nat.le_trans h.2.1 (ih h.2.2))

theorem mono (h : InOrder lo row hi) {lo' hi' : Nat} (hlo : lo' ≤ lo) (hhi : hi ≤ hi') :
    InOrder lo' row hi' := by
  induction row generalizing lo lo' with
  | nil => exact Nat.le_trans hlo (Nat.le_trans h hhi)
  | cons p rest ih => exact ⟨Nat.le_trans hlo h.1, h.2.1, ih h.2.2 (Nat.le_refl _)⟩

theorem append_iff : InOrder lo (first ++ second) hi ↔
    ∃ mid, InOrder lo first mid ∧ InOrder mid second hi := by
  induction first generalizing lo with
  | nil => exact ⟨fun h => ⟨lo, Nat.le_refl lo, h⟩, fun ⟨mid, hle, h⟩ => h.mono hle (Nat.le_refl _)⟩
  | cons p rest ih =>
    refine ⟨fun ⟨hlo, hp, h⟩ => ?_, fun ⟨mid, ⟨hlo, hp, h⟩, h'⟩ => ⟨hlo, hp, ih.mpr ⟨mid, h, h'⟩⟩⟩
    obtain ⟨mid, hrest, hsecond⟩ := ih.mp h
    exact ⟨mid, ⟨hlo, hp, hrest⟩, hsecond⟩

theorem append (h : InOrder lo first mid) (h' : InOrder mid second hi) :
    InOrder lo (first ++ second) hi := append_iff.mpr ⟨mid, h, h'⟩

/-- Plots may be left out. -/
theorem sublist (h : InOrder lo row hi) (hsub : parts.Sublist row) : InOrder lo parts hi := by
  induction hsub generalizing lo with
  | slnil => exact h
  | cons p _ ih => exact ih (h.2.2.mono (Nat.le_trans h.1 h.2.1) (Nat.le_refl _))
  | cons_cons p _ ih => exact ⟨h.1, h.2.1, ih h.2.2⟩

theorem inside (h : InOrder lo row hi) : ∀ p ∈ row, lo ≤ p.start ∧ p.start ≤ p.stop ∧
    p.stop ≤ hi := by
  induction row generalizing lo with
  | nil => exact nofun
  | cons p rest ih =>
    refine List.forall_mem_cons.mpr ⟨⟨h.1, h.2.1, h.2.2.le⟩, fun q hq => ?_⟩
    obtain ⟨hstart, hspan, hstop⟩ := ih h.2.2 q hq
    exact ⟨by have := h.1; have := h.2.1; omega, hspan, hstop⟩

theorem pairwise (h : InOrder lo row hi) : row.Pairwise fun p q => p.stop ≤ q.start := by
  induction row generalizing lo with
  | nil => exact .nil
  | cons p rest ih => exact .cons (fun q hq => (h.2.2.inside q hq).1) (ih h.2.2)

end InOrder

/-- The plot starts and ends between characters, and its parts are a row between its ends, which
fit themselves. -/
inductive Plot.Fits (ground : Ground) : Plot → Prop
  | intro {p : Plot} (start : IsBoundary ground.text p.start) (stop : IsBoundary ground.text p.stop)
      (order : InOrder p.start p.parts p.stop) (parts : ∀ q ∈ p.parts, Fits ground q)
      (allowed : p.isDecorator = true → ground.decorated) : Fits ground p

/-- Every one of the plots fits. -/
abbrev Ground.Holds (ground : Ground) (row : List Plot) : Prop := ∀ p ∈ row, p.Fits ground

/-- A row of plots that fit. -/
structure Row (ground : Ground) (lo : Nat) (row : List Plot) (hi : Nat) : Prop where
  order : InOrder lo row hi
  fits : ground.Holds row

namespace Plot.Fits

variable {ground : Ground} {p : Plot}

theorem isBoundary_start (h : p.Fits ground) : IsBoundary ground.text p.start := by
  cases h
  assumption

theorem isBoundary_stop (h : p.Fits ground) : IsBoundary ground.text p.stop := by
  cases h
  assumption

theorem allowed (h : p.Fits ground) : p.isDecorator = true → ground.decorated := by
  cases h
  assumption

theorem row (h : p.Fits ground) : Row ground p.start p.parts p.stop := by
  cases h
  exact ⟨by assumption, by assumption⟩

theorem le (h : p.Fits ground) : p.start ≤ p.stop := h.row.order.le

theorem part (h : p.Fits ground) {q : Plot} (hq : q ∈ p.parts) : q.Fits ground := h.row.fits q hq

theorem of_node {span : Span} {parts : List Plot} (hstart : IsBoundary ground.text span.start)
    (hstop : IsBoundary ground.text span.stop) (h : Row ground span.start parts span.stop) :
    (Plot.node span parts).Fits ground := .intro hstart hstop h.order h.fits nofun

theorem of_leaf {span : Span} (hstart : IsBoundary ground.text span.start)
    (hstop : IsBoundary ground.text span.stop) (hle : span.start ≤ span.stop) :
    (Plot.leaf span).Fits ground := of_node hstart hstop ⟨hle, nofun⟩

end Plot.Fits

namespace Row

variable {ground : Ground} {lo hi mid : Nat} {row first second parts : List Plot}

theorem nil (h : lo ≤ hi) : Row ground lo [] hi := ⟨h, nofun⟩

theorem single {p : Plot} (h : p.Fits ground) : Row ground p.start [p] p.stop :=
  ⟨⟨Nat.le_refl _, h.le, Nat.le_refl _⟩, List.forall_mem_singleton.mpr h⟩

theorem le (h : Row ground lo row hi) : lo ≤ hi := h.order.le

theorem mono (h : Row ground lo row hi) {lo' hi' : Nat} (hlo : lo' ≤ lo) (hhi : hi ≤ hi') :
    Row ground lo' row hi' := ⟨h.order.mono hlo hhi, h.fits⟩

theorem append (h : Row ground lo first mid) (h' : Row ground mid second hi) :
    Row ground lo (first ++ second) hi :=
  ⟨h.order.append h'.order, List.forall_mem_append.mpr ⟨h.fits, h'.fits⟩⟩

theorem append_iff : Row ground lo (first ++ second) hi ↔
    ∃ mid, Row ground lo first mid ∧ Row ground mid second hi := by
  refine ⟨fun ⟨horder, hfits⟩ => ?_, fun ⟨mid, h, h'⟩ => h.append h'⟩
  obtain ⟨mid, hfirst, hsecond⟩ := InOrder.append_iff.mp horder
  obtain ⟨hfits₁, hfits₂⟩ := List.forall_mem_append.mp hfits
  exact ⟨mid, ⟨hfirst, hfits₁⟩, ⟨hsecond, hfits₂⟩⟩

/-- Plots may be left out. -/
theorem sublist (h : Row ground lo row hi) (hsub : parts.Sublist row) : Row ground lo parts hi :=
  ⟨h.order.sublist hsub, fun p hp => h.fits p (hsub.subset hp)⟩

/-- Two plots of a row are parted by an offset. -/
theorem cons_iff {p : Plot} : Row ground lo (p :: row) hi ↔
    lo ≤ p.start ∧ p.Fits ground ∧ Row ground p.stop row hi := by
  refine ⟨fun ⟨horder, hfits⟩ => ?_, fun ⟨hlo, hp, h⟩ => ⟨⟨hlo, hp.le, h.order⟩, ?_⟩⟩
  · obtain ⟨hp, hrest⟩ := List.forall_mem_cons.mp hfits
    exact ⟨horder.1, hp, horder.2.2, hrest⟩
  · exact List.forall_mem_cons.mpr ⟨hp, h.fits⟩

/-- What stands between the ends of a plot stands where the plot stood. -/
theorem replace {p : Plot} (h : Row ground lo [p] hi) (hrow : Row ground p.start row p.stop) :
    Row ground lo row hi := by
  obtain ⟨hlo, -, hhi⟩ := cons_iff.mp h
  exact hrow.mono hlo hhi.le

/-- The whole of a row as the parts of one plot. -/
theorem node (h : Row ground lo parts hi) (hlo : IsBoundary ground.text lo)
    (hhi : IsBoundary ground.text hi) : Row ground lo [.node ⟨lo, hi⟩ parts] hi := by
  have hfits : (Plot.node ⟨lo, hi⟩ parts).Fits ground := .of_node hlo hhi h
  exact .single hfits

/-- The whole of a row as the parts of a decorator. -/
theorem decorator (h : Row ground lo parts hi) (hlo : IsBoundary ground.text lo)
    (hhi : IsBoundary ground.text hi) (hallowed : ground.decorated) :
    Row ground lo [.decorator ⟨lo, hi⟩ parts] hi := by
  have hfits : (Plot.decorator ⟨lo, hi⟩ parts).Fits ground :=
    .intro hlo hhi h.order h.fits fun _ => hallowed
  exact .single hfits

end Row

section Nesting

/-- The plot itself, its parts, their parts and so on. -/
inductive Plot.Contains (whole : Plot) : Plot → Prop
  | self : whole.Contains whole
  | part {p q : Plot} (hp : whole.Contains p) (hq : q ∈ p.parts) : whole.Contains q

/-- The plot starts and ends between characters of the text, its parts are inside it, and none of
them starts before the one before it has ended. -/
structure Plot.Nests (text : List Char) (p : Plot) : Prop where
  le : p.start ≤ p.stop
  stop_le : p.stop ≤ byteLength text
  isBoundary_start : IsBoundary text p.start
  isBoundary_stop : IsBoundary text p.stop
  inside : ∀ q ∈ p.parts, p.start ≤ q.start ∧ q.stop ≤ p.stop
  apart : p.parts.Pairwise fun q r => q.stop ≤ r.start

variable {ground : Ground} {whole p : Plot}

theorem Plot.Fits.contained (h : whole.Fits ground) (hp : whole.Contains p) : p.Fits ground := by
  induction hp with
  | self => exact h
  | part _ hq ih => exact ih.part hq

theorem Plot.Fits.nests (h : p.Fits ground) : p.Nests ground.text where
  le := h.le
  stop_le := h.isBoundary_stop.le
  isBoundary_start := h.isBoundary_start
  isBoundary_stop := h.isBoundary_stop
  inside q hq := ⟨(h.row.order.inside q hq).1, (h.row.order.inside q hq).2.2⟩
  apart := h.row.order.pairwise

end Nesting

section Points

/-- An offset that is remembered. -/
@[reducible] def Plot.point (offset : Nat) : Plot := .leaf ⟨offset, offset⟩

variable {ground : Ground} {lo hi offset : Nat} {row parts : List Plot}

/-- A remembered offset divides its row. -/
theorem Row.point_iff : Row ground lo (row ++ .point offset :: parts) hi ↔
    Row ground lo row offset ∧ IsBoundary ground.text offset ∧ Row ground offset parts hi := by
  rw [Row.append_iff]
  simp only [Row.cons_iff]
  refine ⟨fun ⟨mid, hrow, hle, hfits, hparts⟩ => ?_, fun ⟨hrow, hoffset, hparts⟩ => ?_⟩
  · exact ⟨hrow.mono (Nat.le_refl _) hle, hfits.isBoundary_start, hparts⟩
  · exact ⟨offset, hrow, Nat.le_refl _, .of_leaf hoffset hoffset (Nat.le_refl _), hparts⟩

/-- What stands behind a remembered offset becomes one plot. -/
theorem Row.fold (h : Row ground lo (row ++ .point offset :: parts) hi)
    (hhi : IsBoundary ground.text hi) : Row ground lo (row ++ [.node ⟨offset, hi⟩ parts]) hi := by
  obtain ⟨hrow, hoffset, hparts⟩ := Row.point_iff.mp h
  exact hrow.append (hparts.node hoffset hhi)

end Points

end EcmaSyntax.Tree
