import EcmaSyntax.Scope.Exports
import EcmaSyntax.Scope.PrivateNames

/-!
Offsets that the tables of names remember for errors that are raised later: those of repeated
parameters, of private names that are not declared yet, and of exported local names. A condition
that every offset handed to a table has is one that every offset in it has, and the errors that
come out of the table have it too.
-/

namespace EcmaSyntax.Scope

variable {P : Nat → Prop}

/-- The error that a scope keeps for later stands at such an offset. -/
def Frame.Keeps (P : Nat → Prop) (frame : Frame) : Prop := ∀ error ∈ frame.deferred, P error.offset

def Stack.KeepsOffsets (P : Nat → Prop) (stack : Stack) : Prop :=
  ∀ frame ∈ stack.frames, frame.Keeps P

/-- The error, if there is one, stands at such an offset. -/
def FailsOnlyAt (P : Nat → Prop) {α : Type} (found : Except Error α) : Prop :=
  ∀ error, found = .error error → P error.offset

namespace Frame

theorem keeps_ofRoles (roles : List Role) : (ofRoles roles).Keeps P := nofun

theorem Keeps.bind {frame : Frame} (h : frame.Keeps P) (name : String) (kind : BindingKind) :
    (frame.bind name kind).Keeps P := h

theorem Keeps.defer {frame : Frame} (h : frame.Keeps P) {error : Error} (herror : P error.offset) :
    (frame.defer error).Keeps P := by
  intro found hfound
  change (frame.deferred <|> some error) = some found at hfound
  cases hdeferred : frame.deferred with
  | none =>
    rw [hdeferred] at hfound
    obtain rfl := Option.some.inj hfound
    exact herror
  | some earlier =>
    rw [hdeferred] at hfound
    obtain rfl := Option.some.inj hfound
    exact h earlier hdeferred

theorem Keeps.recordVar? {frame recorded : Frame} (h : frame.Keeps P) {name : String}
    {kind : BindingKind} (hrecord : frame.recordVar? name kind = some recorded) :
    recorded.Keeps P := by
  unfold Frame.recordVar? at hrecord
  split at hrecord
  · split at hrecord
    · cases hrecord
    · obtain rfl := Option.some.inj hrecord
      exact h
  · obtain rfl := Option.some.inj hrecord
    exact h.bind name kind

end Frame

namespace Stack

variable {stack : Stack} {name : String} {kind : BindingKind} {offset : Nat}

theorem keepsOffsets_ofFrames {frames : List Frame} (h : ∀ frame ∈ frames, frame.Keeps P)
    (hstack : stack.KeepsOffsets P) : (ofFrames frames stack).KeepsOffsets P := by
  cases frames with
  | nil => exact hstack
  | cons current outer => exact h

theorem keepsOffsets_initial : initial.KeepsOffsets P :=
  List.forall_mem_singleton.mpr (Frame.keeps_ofRoles _)

theorem KeepsOffsets.push (h : stack.KeepsOffsets P) (roles : List Role) :
    (stack.push roles).KeepsOffsets P := List.forall_mem_cons.mpr ⟨Frame.keeps_ofRoles roles, h⟩

theorem KeepsOffsets.pop (h : stack.KeepsOffsets P) : stack.pop.KeepsOffsets P := by
  obtain ⟨current, outer⟩ := stack
  cases outer with
  | nil => exact h
  | cons frame rest => exact (List.forall_mem_cons.mp h).2

theorem keeps_recordVar (name : String) {frames : List Frame} (h : ∀ frame ∈ frames, frame.Keeps P)
    (kind : BindingKind) : ∀ frame ∈ (recordVar name kind frames).1, frame.Keeps P := by
  induction frames generalizing kind with
  | nil => exact nofun
  | cons frame outer ih =>
    obtain ⟨hframe, houter⟩ := List.forall_mem_cons.mp h
    unfold recordVar
    cases hrecord : frame.recordVar? name kind with
    | none => exact h
    | some recorded =>
      have hrecorded := hframe.recordVar? hrecord
      dsimp only
      split
      · exact List.forall_mem_cons.mpr ⟨hrecorded, houter⟩
      · exact List.forall_mem_cons.mpr ⟨hrecorded, ih houter .varName⟩

theorem KeepsOffsets.declare (h : stack.KeepsOffsets P) (hoffset : P offset)
    (repeatFunctions : Bool) :
    (stack.declare name kind offset repeatFunctions).2.KeepsOffsets P := by
  obtain ⟨hcurrent, houter⟩ := List.forall_mem_cons.mp h
  have hbind : ∀ kind, KeepsOffsets P { stack with current := stack.current.bind name kind } :=
    fun kind => List.forall_mem_cons.mpr ⟨hcurrent.bind name kind, houter⟩
  have hlexical : (stack.declareLexical name kind offset repeatFunctions).2.KeepsOffsets P := by
    unfold declareLexical
    extract_lets conflict
    split
    · exact h
    · exact hbind kind
  have hvar : (stack.declareVar name kind offset).2.KeepsOffsets P :=
    keepsOffsets_ofFrames (keeps_recordVar name h kind) h
  have hparameter : (stack.declareParameter name offset).KeepsOffsets P := by
    unfold declareParameter
    dsimp only
    split
    · exact List.forall_mem_cons.mpr
        ⟨(hcurrent.bind name .parameter).defer hoffset, houter⟩
    · exact hbind .parameter
  cases kind with
  | varName | functionVar => exact hvar
  | parameter => exact hparameter
  | _ => exact hlexical

/-- A name that cannot be declared is reported where it stands. -/
theorem failsOnlyAt_declare (hoffset : P offset) (repeatFunctions : Bool) :
    FailsOnlyAt P (stack.declare name kind offset repeatFunctions).1 := by
  have hvar : FailsOnlyAt P (stack.declareVar name kind offset).1 := by
    intro error herror
    unfold declareVar at herror
    dsimp only at herror
    split at herror
    · cases herror
    · obtain rfl := Except.error.inj herror
      exact hoffset
  have hlexical : FailsOnlyAt P (stack.declareLexical name kind offset repeatFunctions).1 := by
    intro error herror
    unfold declareLexical at herror
    extract_lets conflict at herror
    split at herror
    · obtain rfl := Except.error.inj herror
      exact hoffset
    · cases herror
  cases kind with
  | varName | functionVar => exact hvar
  | parameter => exact nofun
  | _ => exact hlexical

theorem KeepsOffsets.takeDeferred (h : stack.KeepsOffsets P) (depth : Nat) :
    (∀ error ∈ (stack.takeDeferred depth).1, P error.offset) ∧
      (stack.takeDeferred depth).2.KeepsOffsets P := by
  unfold Stack.takeDeferred
  dsimp only
  split
  · refine ⟨fun error herror => ?_, keepsOffsets_ofFrames (fun frame hframe => ?_) h⟩
    · obtain ⟨frame, hframe, hdeferred⟩ := Option.bind_eq_some_iff.mp herror
      exact h frame (List.mem_of_getElem? hframe) error hdeferred
    · obtain ⟨i, hi, rfl⟩ := List.mem_iff_getElem.mp hframe
      rw [List.getElem_modify]
      split
      · exact nofun
      · exact h _ (List.getElem_mem _)
  · exact ⟨nofun, h⟩

end Stack

/-- Private names that are not declared yet were used at such offsets. -/
def PrivateNames.KeepsOffsets (P : Nat → Prop) (classes : PrivateNames) : Prop :=
  ∀ names ∈ classes, ∀ reference ∈ names.pending, P reference.offset

namespace PrivateNames

variable {classes found : PrivateNames} {name : String} {offset : Nat}

theorem KeepsOffsets.enterClass (h : classes.KeepsOffsets P) : classes.enterClass.KeepsOffsets P :=
  List.forall_mem_cons.mpr ⟨nofun, h⟩

theorem keeps_refer {names : ClassNames} {references : List PrivateReference}
    (h : ∀ reference ∈ names.pending, P reference.offset)
    (hmore : ∀ reference ∈ references, P reference.offset) :
    ∀ reference ∈ (names.refer references).pending, P reference.offset :=
  List.forall_mem_append.mpr ⟨h, hmore⟩

theorem KeepsOffsets.reference (h : classes.KeepsOffsets P) (hoffset : P offset)
    (hfound : classes.reference name offset = .ok found) : found.KeepsOffsets P := by
  cases classes with
  | nil => cases hfound
  | cons innermost outer =>
    obtain rfl := Except.ok.inj hfound
    obtain ⟨hinnermost, houter⟩ := List.forall_mem_cons.mp h
    exact List.forall_mem_cons.mpr
      ⟨keeps_refer hinnermost (List.forall_mem_singleton.mpr hoffset), houter⟩

theorem failsOnlyAt_reference (hoffset : P offset) :
    FailsOnlyAt P (classes.reference name offset) := by
  intro error herror
  cases classes with
  | nil =>
    obtain rfl := Except.error.inj herror
    exact hoffset
  | cons innermost outer => cases herror

theorem pending_declare {names declared : ClassNames} {kind : PrivateKind} {isStatic : Bool}
    (h : names.declare? name kind isStatic = some declared) : declared.pending = names.pending := by
  unfold ClassNames.declare? at h
  split at h
  · obtain rfl := Option.some.inj h
    rfl
  · split at h
    · obtain rfl := Option.some.inj h
      rfl
    · cases h

theorem KeepsOffsets.declare {kind : PrivateKind} {isStatic : Bool} (h : classes.KeepsOffsets P)
    (hfound : classes.declare name kind isStatic offset = .ok found) : found.KeepsOffsets P := by
  unfold PrivateNames.declare at hfound
  split at hfound
  · cases hfound
  · split at hfound
    · cases hfound
    · rename_i innermost outer
      split at hfound
      · rename_i declared hdeclare
        obtain rfl := Except.ok.inj hfound
        obtain ⟨hinnermost, houter⟩ := List.forall_mem_cons.mp h
        exact List.forall_mem_cons.mpr ⟨pending_declare hdeclare ▸ hinnermost, houter⟩
      · cases hfound

theorem failsOnlyAt_declare {kind : PrivateKind} {isStatic : Bool} (hoffset : P offset) :
    FailsOnlyAt P (classes.declare name kind isStatic offset) := by
  intro error herror
  unfold PrivateNames.declare at herror
  split at herror
  · obtain rfl := Except.error.inj herror
    exact hoffset
  · split at herror
    · obtain rfl := Except.error.inj herror
      exact hoffset
    · split at herror
      · cases herror
      · obtain rfl := Except.error.inj herror
        exact hoffset

theorem keeps_unresolved {names : ClassNames}
    (h : ∀ reference ∈ names.pending, P reference.offset) :
    ∀ reference ∈ names.unresolved, P reference.offset :=
  fun reference hreference => h reference ((List.mem_filter.mp hreference).1)

/-- What a class leaves open is handed out, and reported where it was used. -/
theorem KeepsOffsets.exitClass (h : classes.KeepsOffsets P) :
    FailsOnlyAt P classes.exitClass.1 ∧ KeepsOffsets P classes.exitClass.2 := by
  match classes, h with
  | [], h => exact ⟨fun _ herror => (by cases herror), h⟩
  | [last], h =>
    have hopen := keeps_unresolved (List.forall_mem_singleton.mp h)
    unfold PrivateNames.exitClass
    dsimp only
    split
    · exact ⟨fun _ herror => (by cases herror), List.forall_mem_nil _⟩
    · rename_i reference others hlast
      refine ⟨fun error herror => ?_, List.forall_mem_nil _⟩
      obtain rfl := Except.error.inj herror
      exact hopen reference (by simp [hlast])
  | innermost :: around :: outer, h =>
    obtain ⟨hinnermost, hrest⟩ := List.forall_mem_cons.mp h
    obtain ⟨haround, houter⟩ := List.forall_mem_cons.mp hrest
    exact ⟨fun _ herror => (by cases herror), List.forall_mem_cons.mpr
      ⟨keeps_refer haround (keeps_unresolved hinnermost), houter⟩⟩

end PrivateNames

/-- Exported local names were given at such offsets. -/
def Exports.KeepsOffsets (P : Nat → Prop) (exports : Exports) : Prop :=
  ∀ entry ∈ exports.locals, P entry.2

namespace Exports

variable {exports found : Exports} {name : String} {offset : Nat}

theorem KeepsOffsets.add (h : exports.KeepsOffsets P)
    (hfound : exports.add name offset = .ok found) :
    found.KeepsOffsets P := by
  unfold Exports.add at hfound
  split at hfound
  · cases hfound
  · obtain rfl := Except.ok.inj hfound
    exact h

theorem failsOnlyAt_add (hoffset : P offset) : FailsOnlyAt P (exports.add name offset) := by
  intro error herror
  unfold Exports.add at herror
  split at herror
  · obtain rfl := Except.error.inj herror
    exact hoffset
  · cases herror

theorem KeepsOffsets.addLocal (h : exports.KeepsOffsets P) (hoffset : P offset) :
    (exports.addLocal name offset).KeepsOffsets P :=
  List.forall_mem_append.mpr ⟨h, List.forall_mem_singleton.mpr hoffset⟩

theorem KeepsOffsets.undeclared (h : exports.KeepsOffsets P) {scopes : Stack} {error : Error}
    (herror : exports.undeclared? scopes = some error) : P error.offset := by
  obtain ⟨entry, hentry, rfl⟩ := Option.map_eq_some_iff.mp herror
  exact h entry (List.mem_of_find?_eq_some hentry)

end Exports

end EcmaSyntax.Scope
