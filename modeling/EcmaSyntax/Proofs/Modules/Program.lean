import EcmaSyntax.Proofs.Modules.Statements
import EcmaSyntax.Proofs.Modules.Exports
import EcmaSyntax.Proofs.Places.Program
import EcmaSyntax.Unicode.IdentifierRanges

/-!
Names that the items of a list of statements declare: those that the items introduce, if the list is
that of the program, and those of the variables that stand in them.

Imports and exports in a program. They stand nowhere but at the top level of a module, no name is
exported twice, and what is exported by name from the module itself is declared in it.
-/

set_option synthInstance.maxSize 40000

namespace EcmaSyntax.Grammar

open EcmaSyntax.Diagnostic EcmaSyntax.Lexer EcmaSyntax.Scope EcmaSyntax.Tree

variable {w : Search} {depth : Nat} {g : Phrases} {ctx : Context} {start : Nat}

section

variable {version : Nat} [Unicode.IdentifierChars version]

section Imports

variable (D : Prop)

/-- The name is declared by an import of the outermost scope. -/
def Search.Imports (w : Search) (depth : Nat) (id : Identifier) : Prop :=
  depth = 0 ∧ w.name = id.name

theorem tracksBinding_importBinding :
    TracksBinding w depth D (fun id => D ∨ w.Imports depth id) (importBinding g ctx) := by
  have hbinding : TracksBinding w depth D (fun id => D ∨ w.Imports depth id)
      (bindingIdentifier g.options ctx .importName) :=
    (tracksBinding_of_declares (declares_bindingIdentifier w.text g.options ctx .importName)).mono
      fun id h => h.imp_right fun ⟨hreaches, hname⟩ =>
        ⟨hreaches.resolve_right Bool.false_ne_true, List.mem_singleton.mp hname⟩
  unfold importBinding
  infer_instance

theorem tracksBinding_sameBinding (isName : Bool) (name : ModuleName) :
    TracksBinding w depth D (fun id => D ∨ w.Imports depth id) (sameBinding g ctx isName name) := by
  unfold sameBinding
  split
  · rename_i id
    extract_lets rest
    have hrest : ∀ u, TracksBinding w depth D (fun id => D ∨ w.Imports depth id) (rest u) := by
      refine fun u => ⟨fun s hs => (checkBinding_yields ..).bind fun _ s₁ hs₁ => ?_⟩
      subst hs₁
      refine (hs.declared _ _ ?_).bind fun _ s₂ h => .pure h.2
      rintro ⟨⟩
    clear_value rest
    infer_instance
  · exact .stop (stops_fail _)

theorem tracksBinding_importSpecifier :
    TracksBinding w depth D (fun x => D ∨ w.Imports depth x.binding) (importSpecifier g ctx) := by
  unfold importSpecifier
  refine .skip fun start => .skip fun token => .skip fun imported => .skip fun isNamed => ?_
  extract_lets rest
  have hrest : ∀ id : Identifier, TracksBinding w depth (D ∨ w.Imports depth id)
      (fun x => D ∨ w.Imports depth x.binding) (rest id) := fun _ => .skip fun span => .pure id
  clear_value rest
  split
  · exact .skip fun _ => (tracksBinding_importBinding D).bind hrest
  · exact (tracksBinding_sameBinding D _ imported).bind hrest

theorem tracksBinding_importAll :
    TracksBinding w depth D (fun x => D ∨ w.Imports depth x.binding) (importAll g ctx) := by
  unfold importAll
  refine .skip fun start => .skip fun _ => .skip fun isNamed => ?_
  extract_lets rest
  have hrest : ∀ u, TracksBinding w depth D (fun x => D ∨ w.Imports depth x.binding) (rest u) :=
    fun u => .skip fun _ => (tracksBinding_importBinding D).bind fun _ => .skip fun span => .pure id
  clear_value rest
  infer_instance

/-- Some import of the name is among the specifiers. -/
abbrev Search.ImportsAmong (w : Search) (depth : Nat) (xs : List ImportSpecifier) : Prop :=
  ∃ x ∈ xs, w.Imports depth x.binding

theorem tracksBinding_importSpecifiers :
    TracksBinding w depth D (fun xs => D ∨ w.ImportsAmong depth xs) (importSpecifiers g ctx) := by
  unfold importSpecifiers
  refine .skip fun token => ?_
  split
  · refine (tracksBinding_importAll D).bind fun x => .pure fun h => h.imp_right fun hx => ?_
    exact ⟨x, List.mem_singleton_self x, hx⟩
  · refine .skip fun _ => (tracksBinding_listed fun _ =>
      tracksBinding_importSpecifier).bind fun xs => ?_
    exact .skip fun _ => .pure id
  · exact .stop stops_unexpected

theorem tracksBinding_importClause :
    TracksBinding w depth D (fun xs => D ∨ w.ImportsAmong depth xs) (importClause g ctx) := by
  unfold importClause
  refine .skip fun token => ?_
  split
  · refine .skip fun start => (tracksBinding_importBinding D).bind fun id => .skip fun span => ?_
    have hfirst : ∀ xs, (D ∨ w.Imports depth id) ∨ w.ImportsAmong depth xs →
        D ∨ w.ImportsAmong depth (.default span id :: xs) := by
      rintro xs ((h | h) | ⟨x, hx, h⟩)
      · exact .inl h
      · exact .inr ⟨_, List.mem_cons_self, h⟩
      · exact .inr ⟨x, List.mem_cons_of_mem _ hx, h⟩
    refine .skip fun hasMore => ?_
    split
    · exact (tracksBinding_importSpecifiers _).bind fun xs => .pure (hfirst xs)
    · exact .pure fun h => hfirst [] (.inl h)
  · exact tracksBinding_importSpecifiers D

theorem tracksBinding_importDeclaration :
    TracksBinding w depth D (fun x => D ∨ w.Brings depth x) (importDeclaration g ctx) := by
  unfold importDeclaration
  refine .skip fun start => .skip fun _ => .skip fun isBare => ?_
  extract_lets rest
  have hrest : ∀ found, TracksBinding w depth (D ∨ w.ImportsAmong depth found.1)
      (fun x => D ∨ w.Brings depth x) (rest found) := by
    rintro ⟨specifiers, source⟩
    refine .skip fun _ => .skip fun span => .pure fun h => h.imp_right ?_
    rintro ⟨x, hx, hdepth, hname⟩
    refine .inl ⟨hdepth, ?_⟩
    rw [hname]
    exact List.mem_map_of_mem (List.mem_map_of_mem hx)
  clear_value rest
  split
  · exact .skip fun source => (hrest ([], source)).given .inl
  · exact (tracksBinding_importClause D).bind fun specifiers => .skip fun source =>
      hrest (_, source)

end Imports

section Declarations

variable [hg : g.Searched w] (D : Prop)

/-- The statement introduces names that may be declared where it stands. -/
theorem brings_of_introduced {x : Statement} {names : List Identifier}
    (hnames : x.introducedNames = names)
    (h : D ∨ depth = 0 ∧ w.name ∈ names.map Identifier.name) : D ∨ w.Brings depth x :=
  h.imp_right fun ⟨hdepth, hname⟩ => .inl ⟨hdepth, hnames ▸ hname⟩

theorem tracksBinding_functionItem (isAsync : Bool) :
    TracksBinding w depth D (fun x => D ∨ w.Brings depth x)
      (do return .function (← nested (functionDeclaration g ctx isAsync true))) :=
  (tracksBinding_functionDeclaration D isAsync true).nested.bind fun _ =>
    .pure (brings_of_introduced D rfl)

theorem tracksBinding_classItem (decorators : List Decorator) :
    TracksBinding w depth D (fun x => D ∨ w.Brings depth x)
      (do return .classDeclaration (← classDefinition g ctx start true decorators false)) :=
  (tracksBinding_classDefinition D start false decorators).bind fun _ =>
    .pure (brings_of_introduced D rfl)

end Declarations

section Exports

variable [hg : g.Searched w] [hctx : ctx.IsStrict] (D : Prop)

omit hctx in
instance {before : List Decorator} : Silent w (exportDecorators g ctx before) := by
  unfold exportDecorators
  infer_instance

omit hg hctx in
instance : Silent w (exportAll g ctx start) := by
  unfold exportAll
  infer_instance

omit hctx in
theorem tracksBinding_exportDefault (before : List Decorator) :
    TracksBinding w depth D (fun x => D ∨ w.Brings depth x) (exportDefault g ctx start before) := by
  have hfunction : ∀ isAsync, TracksBinding w depth D (fun x => D ∨ w.Brings depth x) (do
      let value ← functionDeclaration g ctx isAsync false
      return .exportDefaultFunction (← spanFrom start) value) := fun isAsync =>
    (tracksBinding_functionDeclaration D isAsync false).bind fun value =>
      .skip fun span => .pure (brings_of_introduced D rfl)
  unfold exportDefault
  refine .skip fun keywordStart => .skip fun _ => .skip fun found => .skip fun _ => ?_
  refine .skip fun valueStart => .skip fun atClass => ?_
  split
  · refine (tracksBinding_classDefinition D valueStart true found).bind fun value => ?_
    exact .skip fun span => .pure (brings_of_introduced D rfl)
  extract_lets rest
  have hrest : ∀ u, TracksBinding w depth D (fun x => D ∨ w.Brings depth x) (rest u) := by
    refine fun u => .skip fun atFunction => ?_
    split
    · exact hfunction false
    refine .skip fun atAsync => ?_
    split
    · exact hfunction true
    · exact .skip fun e => .skip fun _ => .skip fun span => .pure .inl
  clear_value rest
  infer_instance

theorem tracksBinding_exportedDeclaration (decorators : List Decorator) :
    TracksBinding w depth D (fun x => D ∨ w.Brings depth x)
      (exportedDeclaration g ctx decorators) := by
  have hitem := hg.listItem depth ctx D hctx.strict
  unfold exportedDeclaration
  refine .skip fun start => .skip fun token => ?_
  split
  · exact hitem
  · exact hitem
  · exact hitem
  · infer_instance
  · infer_instance
  · exact tracksBinding_classItem D decorators
  · infer_instance

theorem tracksBinding_exportDeclaration (decorators : List Decorator) :
    TracksBinding w depth D (fun x => D ∨ w.Brings depth x)
      (exportDeclaration g ctx start decorators) := by
  unfold exportDeclaration
  refine .skip fun declarationStart =>
    (tracksBinding_exportedDeclaration D decorators).bind fun x => ?_
  extract_lets rest
  have hrest : isDeclaration x = true → ∀ u, TracksBinding w depth (D ∨ w.Brings depth x)
      (fun x => D ∨ w.Brings depth x) (rest u) := by
    refine fun hx u => .skip fun _ => .skip fun span => .pure fun h => h.imp_right ?_
    rintro (⟨hdepth, hname⟩ | hvariable)
    · have hnames : x.introducedNames = x.declaredNames := by
        cases x <;> first | rfl | cases hx
      exact .inl ⟨hdepth, show _ ∈ x.declaredNames.map _ from hnames ▸ hname⟩
    · exact .inr (.inside rfl List.mem_cons_self hvariable)
  clear_value rest
  split
  · infer_instance
  · rename_i hx
    exact hrest (by simpa using hx) ()

theorem tracksBinding_exportStatement (before : List Decorator) :
    TracksBinding w depth D (fun x => D ∨ w.Brings depth x)
      (exportStatement g ctx start before) := by
  unfold exportStatement
  refine .skip fun _ => .skip fun found => .skip fun token => ?_
  extract_lets rest
  have hrest : ∀ u, TracksBinding w depth D (fun x => D ∨ w.Brings depth x) (rest u) := by
    intro u
    dsimp only [rest]
    split
    · exact .of_silent fun _ => .inl
    · exact tracksBinding_exportDefault D found
    · exact .of_silent fun _ => .inl
    · exact tracksBinding_exportDeclaration D found
  clear_value rest
  infer_instance

end Exports

section Items

variable [hg : g.Searched w] [hctx : ctx.IsStrict] (D : Prop)

theorem tracksBinding_decoratedItem :
    TracksBinding w depth D (fun x => D ∨ w.Brings depth x) (decoratedItem g ctx start) := by
  unfold decoratedItem
  refine .skip fun found => .skip fun token => ?_
  split
  · exact tracksBinding_classItem D found
  · split
    · exact tracksBinding_exportStatement D found
    · infer_instance
  · infer_instance

omit hg hctx in
theorem tracksBinding_topLevelItem {word : String} {phrase : Parser Statement}
    (h : TracksBinding w depth D (fun x => D ∨ w.Brings depth x) phrase) :
    TracksBinding w depth D (fun x => D ∨ w.Brings depth x) (topLevelItem ctx word phrase) := by
  unfold topLevelItem
  infer_instance

/-- Whatever comes to be bound in the outermost scope is introduced by the item, which then stands
in that scope, or a variable in it. -/
theorem tracksBinding_listItem : TracksBinding w depth D (fun x => D ∨ w.Brings depth x)
    (listItem g ctx) := by
  unfold listItem
  refine .skip fun start => .skip fun atFunction => ?_
  split
  · exact tracksBinding_functionItem D false
  refine .skip fun atAsync => ?_
  split
  · exact tracksBinding_functionItem D true
  refine .skip fun atClass => ?_
  split
  · exact (tracksBinding_classDefinition D start false []).nested.bind fun _ =>
      .pure (brings_of_introduced D rfl)
  refine .skip fun atSign => ?_
  split
  · exact tracksBinding_decoratedItem D
  refine .skip fun atConst => ?_
  split
  · infer_instance
  refine .skip fun atLet => ?_
  split
  · infer_instance
  refine .skip fun atImport => ?_
  split
  · exact tracksBinding_topLevelItem D (tracksBinding_importDeclaration D)
  refine .skip fun atExport => ?_
  split
  · exact tracksBinding_topLevelItem D (tracksBinding_exportStatement D [])
  have hstatement : ShowsBinding w depth (statement g ctx .listItem) := inferInstance
  refine (hstatement.tracksBinding D).mono fun x hx => hx.imp_right fun hnot => .inr ?_
  exact Classical.not_not.mp fun h => hnot ⟨h⟩

end Items

section Phrases

/-- A name that is looked for in the reading of a program. -/
def programSearch (options : Options) (text name : String) : Search :=
  ⟨programInquiry options text, name⟩

theorem phrases_searched (options : Options) (text name : String) (fuel : Nat) :
    (phrases options (text.toList.length + 2) fuel).Searched (programSearch options text name) := by
  induction fuel with
  | zero =>
    exact
      { keepPlacement := phrases_keepPlacement options text 0
        statement := fun _ _ _ _ => ⟨fun _ => .stop (stops_fail _)⟩
        listItem := fun _ _ _ _ => .stop (stops_fail _) }
  | succ fuel ih =>
    exact
      { keepPlacement := phrases_keepPlacement options text (fuel + 1)
        statement := fun depth ctx position hctx =>
          have : ctx.IsStrict := ⟨hctx⟩
          inferInstanceAs (ShowsBinding _ depth (statement (phrases options _ fuel) ctx position))
        listItem := fun depth ctx D hctx =>
          have : ctx.IsStrict := ⟨hctx⟩
          tracksBinding_listItem (g := phrases options _ fuel) D }

instance {text : List Char} {fuel : Nat} : Course.IsQuiet ⟨text, fuel, True⟩ := ⟨trivial⟩

theorem phrases_publish (options : Options) {text : List Char} {size : Nat}
    (hsize : text.length < size) (fuel : Nat) (ctx : Context) (exports : Exports) :
    PublishesItem ⟨text, fuel, True⟩ exports ((phrases options size fuel).listItem ctx) := by
  induction fuel generalizing ctx exports with
  | zero => exact .stop (stops_fail _)
  | succ fuel ih =>
    have hprogress : (phrases options size fuel).Progresses ⟨text, fuel, True⟩ :=
      phrases_progress options hsize fuel
    have hchains := phrases_chains options size fuel
    exact ⟨(publishes_listItem (g := phrases options size fuel) (ih ctx)).ends⟩

end Phrases

section Bodies

variable {options : Options} {text name : String} {ctx : Context} {g : Phrases}

/-- What the statements so far export is noted, and nothing else. -/
structure ItemsExported (text : List Char) (earlier : List Statement) (s : State) : Prop where
  stands : Stands text s
  adds : Exports.Adds (earlier.reverse.flatMap Statement.exportedNames) Exports.empty s.exports
  locals : ∀ x ∈ earlier, ∀ exported ∈ x.localExports,
    ∃ id, exported = .identifier id ∧ s.exports.NotesLocal id.name

theorem ItemsExported.add {text : List Char} {earlier : List Statement} {s s' : State}
    {x : Statement} (h : ItemsExported text earlier s) (hs' : Stands text s')
    (hx : Exports.Has x s.exports s'.exports) : ItemsExported text (x :: earlier) s' := by
  refine ⟨hs', ?_, List.forall_mem_cons.mpr ⟨hx.locals, fun y hy exported hexported => ?_⟩⟩
  · rw [List.reverse_cons, List.flatMap_append, List.flatMap_singleton]
    exact h.adds.trans hx.adds
  · obtain ⟨id, hid, hlocal⟩ := h.locals y hy exported hexported
    exact ⟨id, hid, hx.adds.notesLocal hlocal⟩

theorem keeps_itemsExported {c : Course}
    (hitem : ∀ ctx exports, PublishesItem c exports (g.listItem ctx)) :
    g.Keeps ctx (ItemsExported c.text) where
  item inner _ earlier s h :=
    ((hitem inner s.exports).ends s h.stands rfl).mono fun _ _ hx => h.add hx.1 hx.2
  directive earlier s span e mark mark' h := by
    refine ⟨h.stands, ?_, ?_⟩
    · have hadds := h.adds
      rw [List.reverse_cons, List.flatMap_append] at hadds ⊢
      exact hadds
    · have hlocals := List.forall_mem_cons.mp h.locals
      exact List.forall_mem_cons.mpr ⟨nofun, hlocals.2⟩

/-- A statement so far brings the name. -/
def Search.BroughtBy (w : Search) (earlier : List Statement) : Prop := ∃ x ∈ earlier, w.Brings 0 x

theorem keeps_brought {w : Search} [hg : g.Searched w] (hctx : ctx.strict = true) :
    g.Keeps ctx (fun earlier s => w.At 0 (w.BroughtBy earlier) s) where
  item inner hinner earlier s h := by
    refine ((hg.listItem 0 inner _ (hinner.strict hctx)).ends s h).mono fun x s' hx => ?_
    refine ⟨hx.oriented, hx.depth, fun hbinds => ?_⟩
    rcases hx.known hbinds with ⟨y, hy, hbrings⟩ | hbrings
    · exact ⟨y, List.mem_cons_of_mem _ hy, hbrings⟩
    · exact ⟨x, List.mem_cons_self, hbrings⟩
  directive earlier s span e mark mark' h := by
    refine ⟨h.oriented, h.depth, fun hbinds => ?_⟩
    obtain ⟨y, hy, hbrings⟩ := h.known hbinds
    rcases List.mem_cons.mp hy with rfl | hy
    · refine ⟨_, List.mem_cons_self, ?_⟩
      rcases hbrings with ⟨-, hname⟩ | hvariable
      · cases hname
      · cases hvariable with
        | here h => cases h
        | inside hn hc h => exact .inr (.inside rfl hc h)
    · exact ⟨y, List.mem_cons_of_mem _ hy, hbrings⟩

end Bodies

section Programs

variable {options : Options} {text : String}

/-- What is exported by name from the module itself is declared at its top level at the end. -/
theorem checkExports_yields (options : Options) (s : State) : Yields (checkExports options)
    (fun _ s' => s' = s ∧ (options.module = true → ∀ name, s.exports.NotesLocal name →
      s.scopes.isDeclaredAtTop name = true)) s := by
  unfold checkExports
  split
  · refine .run rfl ?_
    cases hfound : s.exports.undeclared? s.scopes with
    | some error => trivial
    | none =>
      refine .pure ⟨rfl, fun _ name hname => ?_⟩
      obtain ⟨entry, hentry, rfl⟩ := List.mem_map.mp hname
      have hnone := List.find?_eq_none.mp (Option.map_eq_none_iff.mp hfound) entry hentry
      simpa using hnone
  · rename_i hmodule
    exact .pure ⟨rfl, fun h => absurd h hmodule⟩

/-- What is known at the end of the items that are read. -/
theorem program_yields {g : Phrases} {length : Nat} {I : List Statement → State → Prop} {s : State}
    (hkeeps : g.Keeps (startContext g.options) I) (hstart : Yields next (fun _ s' => I [] s') s) :
    Yields (program g length) (fun p s' => I p.body.reverse s' ∧
      (g.options.module = true → ∀ name, s'.exports.NotesLocal name →
        s'.scopes.isDeclaredAtTop name = true)) s := by
  unfold program
  refine hstart.bind fun _ s₁ h₁ => (bodyStatements_keeps hkeeps h₁).bind fun found s₂ h₂ => ?_
  refine (checkExports_yields g.options s₂).bind fun _ s₃ ⟨hs₃, hdeclared⟩ => .pure ?_
  subst hs₃
  exact ⟨h₂, hdeclared⟩

/-- How a program begins. -/
theorem next_initial (options : Options) (text : List Char) : Yields next (fun _ s' =>
    Stands text s' ∧ Oriented text s'.lexer ∧ s'.exports = Exports.empty ∧
      s'.scopes = Stack.initial) (State.initial options false text) := by
  have hstands : Stands text (State.initial options false text) := Reached.initial.stands
  have hlight : Light next := inferInstance
  have hmoves := hlight.moves (State.initial options false text)
  refine (hmoves.weaken fun _ _ => trivial).mono fun _ s' hs' => ?_
  exact ⟨(Goes.of_strides (c := ⟨text, 0, True⟩) hs' hstands).stands,
    (hs'.oriented (oriented_initial _ _ _)).1, hs'.exports, hs'.scopes⟩

variable {p : Program} {s : State}

theorem run_exports (h : run options false text.toList = .ok p s) :
    ItemsExported text.toList p.body.reverse s ∧ (options.module = true →
      ∀ name, s.exports.NotesLocal name → s.scopes.isDeclaredAtTop name = true) := by
  have hsize : text.toList.length < text.toList.length + 2 := by omega
  have hitem := phrases_publish options hsize (8 * (text.toList.length + 2))
  refine (program_yields (keeps_itemsExported hitem) ?_).result h
  refine (next_initial options text.toList).mono fun _ s' ⟨hstands, _, hexports, _⟩ => ?_
  exact ⟨hstands, hexports ▸ .refl _, nofun⟩

/-- Whatever the outermost scope of a module binds at its end is declared in it. -/
theorem run_declares (h : run options false text.toList = .ok p s) (hmodule : options.module = true)
    {name : String} (hname : s.scopes.isDeclaredAtTop name = true) : p.Declares name := by
  have hsearched := phrases_searched options text name (8 * (text.toList.length + 2))
  have hstrict : (startContext options).strict = true := by
    rw [startContext, hmodule, Bool.true_or]
  have hends := (program_yields (keeps_brought hstrict) ?_).result h
  · obtain ⟨x, hx, hbrings⟩ := hends.1.known hname
    exact ⟨x, List.mem_reverse.mp hx, hbrings.imp_left And.right⟩
  · refine (next_initial options text.toList).mono fun _ s' ⟨_, horiented, _, hscopes⟩ => ?_
    refine ⟨horiented, congrArg Stack.depth hscopes, fun hbinds => ?_⟩
    rw [hscopes] at hbinds
    cases hbinds

end Programs

/-- Outside of modules nothing is an import or export. -/
theorem isModuleItem_of_listed {keepsParens topLevel : Bool} {x : Statement}
    (h : (Node.statement x).Listed keepsParens topLevel) (hitem : x.isModuleItem = true) :
    topLevel = true := by
  cases topLevel with
  | true => rfl
  | false => exact absurd hitem (Bool.eq_false_iff.mp (h.free rfl))

/-- Imports and exports of a program are in order: they stand at the top level of a module, no name
is exported twice, and what is exported by name from the module itself is declared in it. -/
theorem parse_moduleFits {options : Options} {text : String} {p : Program}
    (h : parse options text = .ok p) : p.ModuleFits options.module := by
  obtain ⟨s, hrun⟩ := exists_run h
  have hlisted := parse_listed h
  obtain ⟨hexports, hdeclared⟩ := run_exports hrun
  refine ⟨fun x hx above y hpath hy => ?_, ?_, fun x hx exported hexported => ?_⟩
  · obtain rfl := Node.eq_nil_of_isModuleItem (hlisted x hx).every hpath hy
    cases hpath
    exact ⟨rfl, isModuleItem_of_listed (hlisted x hx) hy⟩
  · have hadds := hexports.adds
    rw [List.reverse_reverse] at hadds
    have hdistinct := hadds.distinct List.nodup_nil
    rwa [hadds.names] at hdistinct
  · have hitem : x.isModuleItem = true := by
      cases x <;> first | rfl | cases hexported
    have hmodule := isModuleItem_of_listed (hlisted x hx) hitem
    obtain ⟨id, hid, hlocal⟩ :=
      hexports.locals x (List.mem_reverse.mpr hx) exported hexported
    exact ⟨id, hid, run_declares hrun hmodule (hdeclared hmodule id.name hlocal)⟩

end

/-- Exports of a variable that is declared in a block, of a class and of an import. -/
theorem parse_moduleFits_hoisted :
    ∃ p, parse Options.asModule
        "export { a, b as c }; import b from 'm'; { var a } export class D { }" = .ok p ∧
      p.ModuleFits true := by
  obtain ⟨p, hp⟩ := exists_ok_of_isOk Options.asModule
    "export { a, b as c }; import b from 'm'; { var a } export class D { }" (by decide +kernel)
  exact ⟨p, hp, parse_moduleFits hp⟩

end EcmaSyntax.Grammar
