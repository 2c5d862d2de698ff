import EcmaSyntax.Proofs.Tree.Node
import EcmaSyntax.Proofs.Tree.Places
import EcmaSyntax.Proofs.Grammar.Makes
import EcmaSyntax.Proofs.Places.Program
import EcmaSyntax.Proofs.Scope.Parameters

/-!
What a module exports and what it declares. A module declares the names of its imports and those of
its variables, functions and classes at the top level. A variable that stands deeper is one of the
module too, unless it is in a function or a static block.

Where the names in the outermost scope come from. A name is fixed, and what is known if the
outermost scope binds it goes from step to step: either it was known before, or a variable of the
name stands in something that has been read since. Steps that declare nothing leave it as it is, and
a node takes over what is known from the nodes below it, which is left to instances.
-/

namespace EcmaSyntax.Tree

namespace Statement

/-- The names under which the statement exports something. -/
def exportedNames : Statement → List String
  | .exportDeclaration _ declaration => declaration.declaredNames.map Identifier.name
  | .exportNames declaration => declaration.specifiers.map fun s => s.exported.text
  | .exportAll declaration => declaration.exported.toList.map ModuleName.text
  | .exportDefaultFunction _ _ | .exportDefaultClass _ _ | .exportDefault _ _ => ["default"]
  | _ => []

/-- What the statement exports from the module itself by name. -/
def localExports : Statement → List ModuleName
  | .exportNames ⟨_, specifiers, none, _⟩ => specifiers.map ExportSpecifier.binding
  | _ => []

/-- The names that the statement introduces where it stands. -/
def introducedNames : Statement → List Identifier
  | .importDeclaration declaration => declaration.specifiers.map ImportSpecifier.binding
  | .exportDeclaration _ declaration => declaration.declaredNames
  | .exportDefaultFunction _ f => f.id.toList
  | .exportDefaultClass _ c => c.id.toList
  | x => x.declaredNames

end Statement

namespace Node

/-- Variables that are declared in the node are also declared around it. -/
@[reducible] def letsVariablesOut : Node → Bool
  | .function _ | .expression (.arrow _ _ _ _) | .expression (.blockArrow _ _ _ _ _)
  | .classElement (.staticBlock _ _) => false
  | _ => true

/-- The names of the variables that the node itself declares. -/
def ownVariables : Node → List Identifier
  | .statement (.variables _ .varKind declarations)
  | .forHead (.variables _ .varKind declarations) => declarations.flatMap fun d => d.id.boundNames
  | _ => []

/-- A variable of the name is declared in the node, in no function or static block. -/
inductive HasVariable (name : String) : Node → Prop
  | here {n} (h : name ∈ n.ownVariables.map Identifier.name) : HasVariable name n
  | inside {n c} (hn : n.letsVariablesOut = true) (hc : c ∈ n.children) (h : HasVariable name c) :
    HasVariable name n

end Node

/-- The name is declared at the top level of the program, or as a variable that gets there. -/
def Program.Declares (p : Program) (name : String) : Prop :=
  ∃ x ∈ p.body,
    name ∈ x.introducedNames.map Identifier.name ∨ (Node.statement x).HasVariable name

/-- The imports and exports of a program are in order. -/
structure Program.ModuleFits (isModule : Bool) (p : Program) : Prop where
  /-- They stand nowhere but at the top level of a module. -/
  placed : ∀ x ∈ p.body, ∀ above y, Node.Path (.statement x) above (.statement y) →
    y.isModuleItem = true → above = [] ∧ isModule = true
  /-- No name is exported twice. -/
  distinct : (p.body.flatMap Statement.exportedNames).Nodup
  /-- What is exported by name from the module itself is declared. -/
  declared : ∀ x ∈ p.body, ∀ exported ∈ x.localExports,
    ∃ id, exported = .identifier id ∧ p.Declares id.name

end EcmaSyntax.Tree

set_option synthInstance.maxSize 2000

namespace EcmaSyntax.Grammar

open EcmaSyntax.Diagnostic EcmaSyntax.Lexer EcmaSyntax.Scope EcmaSyntax.Tree

variable {version : Nat} [Unicode.IdentifierChars version]

variable {α β γ : Type}

/-- A name that is looked for in the reading of a text. -/
structure Search extends Inquiry where
  name : String

/-- The node declares no variable of the name. -/
def Search.Lacks (w : Search) (n : Node) : Prop := ¬ n.HasVariable w.name

/-- So many scopes are open in the outermost one. If that scope binds the name, something is
known. -/
structure Search.At (w : Search) (depth : Nat) (D : Prop) (s : State) : Prop where
  oriented : Oriented w.text s.lexer
  depth : s.scopes.depth = depth
  known : s.scopes.top.Binds w.name → D

/-- The step turns what is known into something else. -/
class TracksBinding (w : Search) (depth : Nat) (D : Prop) (E : α → Prop) (step : Parser α) :
  Prop where
  ends : ∀ s, w.At depth D s → Yields step (fun a s' => w.At depth (E a) s') s

/-- The step declares nothing. -/
class Silent (w : Search) (step : Parser α) : Prop where
  ends : ∀ s, Oriented w.text s.lexer →
    Yields step (fun _ s' => Oriented w.text s'.lexer ∧ s'.scopes = s.scopes) s

/-- A variable that comes to be bound stands in what the step reads. -/
class ShowsBinding (w : Search) (depth : Nat) [Forest α] (step : Parser α) : Prop where
  tracksBinding : ∀ D, TracksBinding w depth D (fun a => D ∨ ¬ AllIn w.Lacks a) step

variable {w : Search} {depth : Nat} {D : Prop} {E : α → Prop} {F : β → Prop} {step : Parser α}
  {rest : α → Parser β}

section Implications

/-- The first implies the second. -/
class Leads (p q : Prop) : Prop where
  leads : p → q

/-- What stands in the first value stands in the second. -/
class Part (w : Search) [Forest α] [Forest β] (a : α) (b : β) : Prop where
  all : AllIn w.Lacks b → AllIn w.Lacks a

variable {p p' q : Prop}

instance : Leads p p := ⟨id⟩
instance : Leads p (p ∨ q) := ⟨.inl⟩
instance [h : Leads p q] [h' : Leads p' q] : Leads (p ∨ p') q := ⟨Or.rec h.leads h'.leads⟩

variable [Forest α] [Forest β] [Forest γ] {a : α} {b : β} {c : γ}

instance [h : Part w a b] : Leads (¬ AllIn w.Lacks a) (D ∨ ¬ AllIn w.Lacks b) :=
  ⟨fun ha => .inr fun hb => ha (h.all hb)⟩

instance : Part w a a := ⟨id⟩

instance (priority := low) [Bare α] : Part w a b := ⟨fun _ => ⟨Bare.all w.Lacks a⟩⟩

instance [h : Part w a c] [h' : Part w b c] : Part w (a, b) c :=
  ⟨fun hc => ⟨(h.all hc).all, (h'.all hc).all⟩⟩

instance [h : Part w c a] : Part w c (a, b) := ⟨fun hab => h.all ⟨hab.all.1⟩⟩

instance [h : Part w c b] : Part w c (a, b) := ⟨fun hab => h.all ⟨hab.all.2⟩⟩

instance [h : Part w c a] : Part w c (some a) := ⟨fun ha => h.all ha.of_some⟩

instance : Part w (none : Option α) b := ⟨fun _ => inferInstance⟩

instance [h : Part w a b] : Part w (some a) b :=
  ⟨fun hb => have := h.all hb; inferInstance⟩

instance {items : List β} [h : Part w a b] : Part w a (b :: items) :=
  ⟨fun hb => h.all ⟨hb.all b List.mem_cons_self⟩⟩

instance {items : List β} [h : Part w a items] : Part w a (b :: items) :=
  ⟨fun hb => h.all ⟨fun x hx => hb.all x (List.mem_cons_of_mem b hx)⟩⟩

instance {items others : List β} [h : Part w a items] : Part w a (items ++ others) :=
  ⟨fun hb => h.all ⟨fun x hx => hb.all x (List.mem_append_left others hx)⟩⟩

instance {items others : List β} [h : Part w a others] : Part w a (items ++ others) :=
  ⟨fun hb => h.all ⟨fun x hx => hb.all x (List.mem_append_right items hx)⟩⟩

instance {items : List Statement} [h : Part w a items] : Part w a (items.map Node.statement) :=
  ⟨fun hb => h.all ⟨fun _ hx => hb.all _ (List.mem_map_of_mem hx)⟩⟩

instance {items : List SwitchCase} [h : Part w a items] : Part w a (items.map Node.switchCase) :=
  ⟨fun hb => h.all ⟨fun _ hx => hb.all _ (List.mem_map_of_mem hx)⟩⟩

instance {x : Statement} [h : Part w a x] : Part w a (Node.statement x) :=
  ⟨fun hb => h.all ⟨hb.all⟩⟩

instance {x : CatchClause} [h : Part w a x] : Part w a (Node.catchClause x) :=
  ⟨fun hb => h.all ⟨hb.all⟩⟩

instance {x : ForHead} [h : Part w a x] : Part w a (Node.forHead x) := ⟨fun hb => h.all ⟨hb.all⟩⟩

instance [h : Part w c a] : Part w c (Round.last a) := ⟨fun ha => h.all ⟨ha.all⟩⟩

instance [h : Part w c a] : Part w c (Round.more a) := ⟨fun ha => h.all ⟨ha.all⟩⟩

instance {p : Prop} [Decidable p] {b' : β} [h : Part w a b] [h' : Part w a b'] :
    Part w a (if p then b else b') := by
  split <;> infer_instance

theorem lacks_children {n : Node} (hn : n.letsVariablesOut = true) (h : w.Lacks n) :
    AllIn w.Lacks n.children := ⟨fun _ hc hhas => h (.inside hn hc hhas)⟩

instance {x : Statement} [h : Part w a (Node.statement x).children] : Part w a x :=
  ⟨fun hb => h.all (lacks_children rfl hb.all)⟩

instance {x : SwitchCase} [h : Part w a (Node.switchCase x).children] : Part w a x :=
  ⟨fun hb => h.all (lacks_children rfl hb.all)⟩

instance {x : CatchClause} [h : Part w a (Node.catchClause x).children] : Part w a x :=
  ⟨fun hb => h.all (lacks_children rfl hb.all)⟩

end Implications

section States

theorem Search.At.moves {s s' : State} (h : w.At depth D s) (hs' : Oriented w.text s'.lexer)
    (hscopes : s'.scopes = s.scopes) : w.At depth D s' :=
  ⟨hs', hscopes ▸ h.depth, hscopes ▸ h.known⟩

theorem Search.At.push {s : State} (h : w.At depth D s) (roles : List Role) :
    w.At (depth + 1) D { s with scopes := s.scopes.push roles } :=
  ⟨h.oriented, congrArg (· + 1) h.depth, h.known⟩

theorem Search.At.pop {s : State} (h : w.At (depth + 1) D s) :
    w.At depth D { s with scopes := s.scopes.pop } := by
  refine ⟨h.oriented, Stack.depth_pop h.depth, fun hbinds => h.known ?_⟩
  rwa [← Stack.top_pop (Stack.outer_ne_nil_of_depth h.depth)]

end States

section Steps

instance (priority := low) [h : Loose step] : Silent w step :=
  ⟨fun s hs => ((h.moves s).weaken fun _ _ => trivial).mono fun _ _ ha =>
    ⟨(ha.oriented hs).1, ha.scopes⟩⟩

instance Silent.bind [h : Silent w step] [hrest : ∀ a, Silent w (rest a)] :
    Silent w (step >>= rest) :=
  ⟨fun s hs => (h.ends s hs).bind fun a s' ha => ((hrest a).ends s' ha.1).mono fun _ _ hb =>
    ⟨hb.1, hb.2.trans ha.2⟩⟩

theorem Silent.skip [Silent w step] (hrest : ∀ a, Silent w (rest a)) : Silent w (step >>= rest) :=
  .bind

instance [h : Silent w step] {f : α → β} : Silent w (f <$> step) :=
  ⟨fun s hs => .map (h.ends s hs)⟩

instance {p : Prop} [Decidable p] {first second : Parser α} [Silent w first] [Silent w second] :
    Silent w (if p then first else second) := by
  split <;> infer_instance

/-- A change to the parts of the state that declarations do not depend on. -/
instance {observing assignable : State → Bool} {observations : State → Observations}
    {privateNames : State → PrivateNames} {labels : State → Labels} {exports : State → Exports}
    {cover : State → Cover} {parenthesized spreads : State → List Nat}
    {labelChain lastYield lastAwait lastAwaitName assignmentStart : State → Option Nat}
    {previousEnd depth : State → Nat} :
    Silent w (modify fun s => ⟨s.lexer, observing s, observations s, s.scopes, privateNames s,
      labels s, labelChain s, exports s, assignable s, cover s, parenthesized s, spreads s,
      lastYield s, lastAwait s, lastAwaitName s, assignmentStart s, previousEnd s, depth s,
      s.refused⟩ : Parser Unit) :=
  ⟨fun _ hs => .ok rfl ⟨hs, rfl⟩⟩

theorem silent_of_keepsPlacement {P : Prop → α → Prop}
    (h : KeepsPlacement w.toInquiry .none P step) :
    Silent w step :=
  ⟨fun s hs => Meets.yields_iff.mpr fun _ _ hrun =>
    have harrives := (h s hs).result hrun
    ⟨harrives.oriented, harrives.scopes⟩⟩

theorem TracksBinding.mono {E' : α → Prop} (h : TracksBinding w depth D E step)
    (hE : ∀ a, E a → E' a) :
    TracksBinding w depth D E' step :=
  ⟨fun s hs => (h.ends s hs).mono fun a _ ha =>
    ⟨ha.oriented, ha.depth, fun hbinds => hE a (ha.known hbinds)⟩⟩

/-- Less may be known before. -/
theorem TracksBinding.given {D' : Prop} (h : TracksBinding w depth D' E step) (hD : D → D') :
    TracksBinding w depth D E step :=
  ⟨fun s hs => h.ends s ⟨hs.oriented, hs.depth, fun hbinds => hD (hs.known hbinds)⟩⟩

theorem TracksBinding.bind (h : TracksBinding w depth D E step)
    (hrest : ∀ a, TracksBinding w depth (E a) F (rest a)) :
      TracksBinding w depth D F (step >>= rest) :=
  ⟨fun s hs => (h.ends s hs).bind fun a s' ha => (hrest a).ends s' ha⟩

theorem TracksBinding.pure {a : α} (h : D → E a) : TracksBinding w depth D E (Pure.pure a) :=
  ⟨fun _ hs => .pure ⟨hs.oriented, hs.depth, fun hbinds => h (hs.known hbinds)⟩⟩

instance {a : α} [h : Leads D (E a)] : TracksBinding w depth D E (Pure.pure a) := .pure h.leads

/-- A step that fails. -/
theorem TracksBinding.stop (h : Stops step) : TracksBinding w depth D E step :=
    ⟨fun _ _ => h.yields⟩

instance {cause : Cause} {offset : Nat} : TracksBinding w depth D E (failAt cause offset) :=
  .stop (stops_failAt _ _)

instance {cause : Cause} : TracksBinding w depth D E (fail cause) := .stop (stops_fail _)

instance : TracksBinding w depth D E unexpected := .stop stops_unexpected

instance (priority := high) {cause : Cause} {offset : Nat} :
    TracksBinding w depth D F (failAt cause offset >>= rest) :=
  ⟨fun _ _ => (stops_failAt cause offset).bind⟩

instance (priority := high) {cause : Cause} : TracksBinding w depth D F (fail cause >>= rest) :=
  ⟨fun _ _ => (stops_fail cause).bind⟩

instance (priority := high) : TracksBinding w depth D F (unexpected >>= rest) :=
  ⟨fun _ _ => stops_unexpected.bind⟩

/-- A step that declares nothing. -/
theorem TracksBinding.of_silent [h : Silent w step] (hE : ∀ a, D → E a) :
    TracksBinding w depth D E step :=
  ⟨fun s hs => (h.ends s hs.oriented).mono fun a _ ha =>
    have hs' := hs.moves ha.1 ha.2
    ⟨hs'.oriented, hs'.depth, fun hbinds => hE a (hs'.known hbinds)⟩⟩

theorem TracksBinding.skip [Silent w step] (hrest : ∀ a, TracksBinding w depth D F (rest a)) :
    TracksBinding w depth D F (step >>= rest) :=
  .bind (.of_silent fun _ => id) hrest

instance (priority := high) [Silent w step] [∀ a, TracksBinding w depth D F (rest a)] :
    TracksBinding w depth D F (step >>= rest) := .skip inferInstance

instance [Forest α] [h : ShowsBinding w depth step]
    [hrest : ∀ a, TracksBinding w depth (D ∨ ¬ AllIn w.Lacks a) F (rest a)] :
    TracksBinding w depth D F (step >>= rest) := (h.tracksBinding D).bind hrest

instance {step : Parser (α × β)} {rest : α × β → Parser γ} {F : γ → Prop} [Forest α] [Forest β]
    [h : ShowsBinding w depth step]
    [hrest : ∀ a b, TracksBinding w depth (D ∨ ¬ AllIn w.Lacks (a, b)) F (rest (a, b))] :
    TracksBinding w depth D F (step >>= rest) := (h.tracksBinding D).bind fun pair =>
      hrest pair.1 pair.2

instance {p : Prop} [Decidable p] {first second : Parser α} [TracksBinding w depth D E first]
    [TracksBinding w depth D E second] :
      TracksBinding w depth D E (if p then first else second) := by
  split <;> infer_instance

variable [Forest α]

theorem ShowsBinding.of_tracksBinding
    (h : ∀ D, TracksBinding w depth D (fun a => D ∨ ¬ AllIn w.Lacks a) step) :
      ShowsBinding w depth step := ⟨h⟩

instance (priority := low) [h : ∀ D,
    TracksBinding w depth D (fun a => D ∨ ¬ AllIn w.Lacks a) step] :
    ShowsBinding w depth step := ⟨h⟩

instance (priority := low) [h : ShowsBinding w depth step] :
    TracksBinding w depth D (fun a => D ∨ ¬ AllIn w.Lacks a) step := h.tracksBinding D

instance [h : ShowsBinding w depth step] : ShowsBinding w depth (some <$> step) :=
  ⟨fun D => ⟨fun s hs => .map (((h.tracksBinding D).ends s hs).mono fun _ _ ha =>
    ⟨ha.oriented, ha.depth, fun hbinds => (ha.known hbinds).imp_right (mt AllIn.of_some)⟩)⟩⟩

omit [Forest α] in
theorem TracksBinding.nested (h : TracksBinding w depth D E step) :
    TracksBinding w depth D E (nested step) := by
  unfold Grammar.nested
  exact .skip fun _ => h.bind fun a => .skip fun _ => .pure id

instance [h : TracksBinding w depth D E step] : TracksBinding w depth D E (nested step) := h.nested

omit [Forest α] in
theorem TracksBinding.inScope {roles : List Role} (h : TracksBinding w (depth + 1) D E step) :
    TracksBinding w depth D E (inScope roles step) := by
  unfold Grammar.inScope
  exact ⟨fun s hs => .run rfl ((h.ends _ (hs.push roles)).bind fun a s' ha =>
    .run rfl (.pure ha.pop))⟩

omit [Forest α] in
instance {roles : List Role} [h : TracksBinding w (depth + 1) D E step] :
    TracksBinding w depth D E (inScope roles step) := h.inScope

end Steps

section Loops

variable {g : Phrases}

/-- What is known when a round has been read. -/
def Round.Knows (D : Prop) (H : α → Prop) : Round α → Prop
  | .stop => D
  | .last item | .more item => D ∨ H item

/-- Items of which each may tell something. -/
theorem tracksBinding_collect {H : α → Prop} {round : List α → Parser (Round α)}
    (hround : ∀ earlier D, TracksBinding w depth D (Round.Knows D H) (round earlier)) :
    TracksBinding w depth D (fun items => D ∨ ∃ a ∈ items, H a) (g.collect round) := by
  suffices h : ∀ fuel earlier, TracksBinding w depth (D ∨ ∃ a ∈ earlier, H a)
      (fun items => D ∨ ∃ a ∈ items, H a) (collectAfter round fuel earlier) from
    (h g.size []).given .inl
  intro fuel
  induction fuel with
  | zero => exact fun _ => .stop (stops_fail _)
  | succ fuel ih =>
    intro earlier
    unfold collectAfter
    have hadd : ∀ item, (D ∨ ∃ a ∈ earlier, H a) ∨ H item → D ∨ ∃ a ∈ item :: earlier, H a := by
      rintro item ((h | ⟨a, ha, h⟩) | h)
      · exact .inl h
      · exact .inr ⟨a, List.mem_cons_of_mem _ ha, h⟩
      · exact .inr ⟨item, List.mem_cons_self, h⟩
    have hreverse : ∀ {items : List α}, (D ∨ ∃ a ∈ items, H a) → D ∨ ∃ a ∈ items.reverse, H a := by
      rintro items (h | ⟨a, ha, hH⟩)
      · exact .inl h
      · exact .inr ⟨a, List.mem_reverse.mpr ha, hH⟩
    refine (hround earlier _).bind fun r => ?_
    cases r with
    | stop => exact .pure hreverse
    | last item => exact .pure fun h => hreverse (hadd item h)
    | more item => exact (ih (item :: earlier)).given (hadd item)

theorem tracksBinding_listed {H : α → Prop} {close : Token} {item : List α → Parser α}
    (hitem : ∀ earlier D, TracksBinding w depth D (fun a => D ∨ H a) (item earlier)) :
    TracksBinding w depth D (fun items => D ∨ ∃ a ∈ items, H a) (g.listed close item) := by
  refine tracksBinding_collect fun earlier D => .skip fun atClose => ?_
  split
  · exact .pure id
  · exact (hitem earlier D).bind fun a => .skip fun _ => .pure id

variable [Forest α]

instance {round : List α → Parser (Round α)} [h : ∀ earlier, ShowsBinding w depth (round earlier)] :
    ShowsBinding w depth (g.collect round) := by
  have hround : ∀ earlier D,
      TracksBinding w depth D (Round.Knows D fun a => ¬ AllIn w.Lacks a) (round earlier) := by
    refine fun earlier D => ((h earlier).tracksBinding D).mono fun r hr => ?_
    cases r with
    | stop => exact hr.elim id fun hr => absurd (inferInstance : AllIn w.Lacks Round.stop) hr
    | last a => exact hr.imp_right fun hr ha => hr inferInstance
    | more a => exact hr.imp_right fun hr ha => hr inferInstance
  refine .of_tracksBinding fun D => (tracksBinding_collect hround).mono fun items hitems => ?_
  exact hitems.imp_right fun ⟨a, ha, hnot⟩ hall => hnot ⟨hall.all a ha⟩

instance {close : Token} {item : Parser α} [ShowsBinding w depth item] :
    ShowsBinding w depth (g.itemsUpTo close item) := by
  unfold Phrases.itemsUpTo
  infer_instance

end Loops

end EcmaSyntax.Grammar
