import EcmaSyntax.Proofs.Chains.Program
import EcmaSyntax.Proofs.Progress.Program
import EcmaSyntax.Proofs.Modules.Declarations

/-!
What the items of a module export. A name is noted once, when the item that exports it is read, and
so is what the item exports from the module itself. Nothing else that is read notes any.
-/

namespace EcmaSyntax.Scope.Exports

variable {names more : List String} {before between after : Exports}

/-- The names are exported besides those before, which they do not repeat. -/
structure Adds (names : List String) (before after : Exports) : Prop where
  names : after.names = before.names ++ names
  distinct : before.names.Nodup → after.names.Nodup
  locals : before.locals ⊆ after.locals

namespace Adds

theorem refl (exports : Exports) : Adds [] exports exports :=
  ⟨(List.append_nil _).symm, id, List.Subset.refl _⟩

theorem trans (h : Adds names before between) (h' : Adds more between after) :
    Adds (names ++ more) before after := by
  refine ⟨?_, fun hdistinct => h'.distinct (h.distinct hdistinct),
    List.Subset.trans h.locals h'.locals⟩
  rw [h'.names, h.names, List.append_assoc]

end Adds

theorem adds_of_add {name : String} {offset : Nat} (h : before.add name offset = .ok after) :
    Adds [name] before after := by
  unfold add at h
  split at h
  · cases h
  · rename_i hnew
    cases h
    refine ⟨rfl, fun hdistinct => ?_, List.Subset.refl _⟩
    refine List.nodup_append.mpr ⟨hdistinct, List.pairwise_singleton _ _, fun other hother _ hb =>
      ?_⟩
    rw [List.mem_singleton.mp hb]
    rintro rfl
    exact hnew (List.contains_iff_mem.mpr hother)

theorem adds_addLocal (exports : Exports) (name : String) (offset : Nat) :
    Adds [] exports (exports.addLocal name offset) :=
  ⟨(List.append_nil _).symm, id, List.subset_append_left _ _⟩

/-- The name is noted as that of a local binding. -/
def NotesLocal (exports : Exports) (name : String) : Prop := name ∈ exports.locals.map Prod.fst

theorem Adds.notesLocal {name : String} (h : Adds names before after)
    (hname : before.NotesLocal name) : after.NotesLocal name := List.map_subset _ h.locals hname

/-- What the statement exports is noted. -/
structure Has (x : Tree.Statement) (before after : Exports) : Prop where
  adds : Adds x.exportedNames before after
  locals : ∀ exported ∈ x.localExports, ∃ id, exported = .identifier id ∧ after.NotesLocal id.name

theorem Has.of_quiet {x : Tree.Statement} (hnames : x.exportedNames = [])
    (hlocals : x.localExports = []) (exports : Exports) : Has x exports exports := by
  refine ⟨hnames ▸ .refl exports, ?_⟩
  rw [hlocals]
  exact nofun

theorem Has.of_plain {x : Tree.Statement} (h : x.isModuleItem = false) (exports : Exports) :
    Has x exports exports := by
  cases x <;> first | exact .of_quiet rfl rfl exports | cases h

end EcmaSyntax.Scope.Exports

namespace EcmaSyntax.Grammar

open EcmaSyntax.Diagnostic EcmaSyntax.Lexer EcmaSyntax.Scope EcmaSyntax.Tree

variable {version : Nat} [Unicode.IdentifierChars version]

variable {α β : Type}

/-- Nothing is exported on the course. -/
class Course.IsQuiet (c : Course) : Prop where
  quiet : c.quiet

/-- The step leads from these exports to such as its result tells. -/
structure Publishes (c : Course) (exports : Exports) (E : α → Exports → Prop) (step : Parser α) :
    Prop where
  ends : ∀ s, Stands c.text s → s.exports = exports →
    Yields step (fun a s' => Stands c.text s' ∧ E a s'.exports) s

namespace Publishes

variable {c : Course} {exports : Exports} {E : α → Exports → Prop} {F : β → Exports → Prop}
  {step : Parser α} {rest : α → Parser β}

theorem bind (h : Publishes c exports E step)
    (hrest : ∀ a after, E a after → Publishes c after F (rest a)) :
    Publishes c exports F (step >>= rest) :=
  ⟨fun s hs hexports => (h.ends s hs hexports).bind fun a s' ha =>
    (hrest a _ ha.2).ends s' ha.1 rfl⟩

theorem pure {a : α} (h : E a exports) : Publishes c exports E (Pure.pure a) :=
  ⟨fun _ hs hexports => .pure ⟨hs, hexports ▸ h⟩⟩

theorem stop (h : Stops step) : Publishes c exports E step := ⟨fun _ _ _ => h.yields⟩

/-- A check that fails or leads to the step. -/
theorem guard {p : Prop} [Decidable p] {first : Parser β} {last : Parser α} {f : β → Parser α}
    (h : Stops first) (hlast : ¬ p → Publishes c exports E last) :
    Publishes c exports E (if p then first >>= f else last) := by
  split
  · exact ⟨fun _ _ _ => h.bind⟩
  · rename_i hp
    exact hlast hp

variable [hquiet : c.IsQuiet]

theorem quiet [h : Proceeds c step] : Publishes c exports (fun _ after => after = exports) step :=
  ⟨fun s hs hexports => (((h.passes s) hs).weaken fun _ _ => trivial).mono fun _ _ ha =>
    ⟨ha.1.stands, (ha.1.exports hquiet.quiet).trans hexports⟩⟩

/-- A step that exports nothing. -/
theorem skip [Proceeds c step] (hrest : ∀ a, Publishes c exports F (rest a)) :
    Publishes c exports F (step >>= rest) :=
  quiet.bind fun a _ hafter => hafter ▸ hrest a

/-- A step that exports nothing, and of whose results something is known. -/
theorem known {P : α → Prop} [Proceeds c step] (hP : ∀ s, Yields step (fun a _ => P a) s)
    (hrest : ∀ a, P a → Publishes c exports F (rest a)) : Publishes c exports F (step >>= rest) :=
  ⟨fun s hs hexports => (((quiet (c := c)).ends s hs hexports).and (hP s)).bind
    fun a s' ha => (hrest a ha.2).ends s' ha.1.1 ha.1.2⟩

end Publishes

section Notes

variable {c : Course} {exports : Exports}

theorem publishes_addExport (name : String) (offset : Nat) :
    Publishes c exports (fun _ after => Exports.Adds [name] exports after)
      (addExport name offset) := by
  refine ⟨fun s hs hexports => .run rfl ?_⟩
  split
  · trivial
  · rename_i after hadd
    exact .ok rfl ⟨⟨hs.situated, hs.previousEnd⟩, Exports.adds_of_add (hexports ▸ hadd)⟩

theorem publishes_noteExport (isLocal : Bool) (specifier : ExportSpecifier) :
    Publishes c exports (fun _ after => Exports.Adds [specifier.exported.text] exports after ∧
      (isLocal = true → after.NotesLocal specifier.binding.text))
      (noteExport isLocal specifier) := by
  refine (publishes_addExport _ _).bind fun _ between hadds => ?_
  dsimp only
  split
  · refine ⟨fun s hs hexports => .ok rfl ⟨⟨hs.situated, hs.previousEnd⟩, ?_⟩⟩
    subst hexports
    refine ⟨hadds.trans (Exports.adds_addLocal ..), fun _ => ?_⟩
    exact List.mem_map_of_mem (List.mem_append_right _ (List.mem_singleton_self _))
  · rename_i hlocal
    exact .pure ⟨hadds, fun h => absurd h hlocal⟩

/-- Items that are noted one after the other, each with a name. -/
theorem publishes_forM (note : α → Parser PUnit) (name : α → String) {N : α → Exports → Prop}
    (hkeeps : ∀ {a names before after}, N a before → Exports.Adds names before after → N a after)
    (hnote : ∀ a before, Publishes c before
      (fun _ after => Exports.Adds [name a] before after ∧ N a after) (note a))
    (items : List α) : Publishes c exports
      (fun _ after => Exports.Adds (items.map name) exports after ∧ ∀ a ∈ items, N a after)
      (items.forM note) := by
  induction items generalizing exports with
  | nil => exact .pure ⟨.refl _, nofun⟩
  | cons item rest ih =>
    refine (hnote item exports).bind fun _ between hitem => ?_
    refine ⟨fun s hs hbetween => (ih.ends s hs hbetween).mono fun _ s' hrest => ⟨hrest.1, ?_⟩⟩
    obtain ⟨hadds, hall⟩ := hrest.2
    exact ⟨hitem.1.trans hadds, List.forall_mem_cons.mpr ⟨hkeeps hitem.2 hadds, hall⟩⟩

end Notes

section Entries

variable {g : Phrases} {ctx : Context}

theorem localFault_yields (s : State) : Yields (localFault? ctx)
    (fun fault s' => s' = s ∧ (fault = none → (s.token == .stringLiteral) = false)) s := by
  unfold localFault?
  refine .run rfl (.run rfl ?_)
  split
  · exact .pure ⟨rfl, nofun⟩
  · rename_i hstring
    refine .run rfl ?_
    split
    · exact .run rfl (.pure ⟨rfl, nofun⟩)
    · exact .pure ⟨rfl, fun _ => Bool.eq_false_iff.mpr hstring⟩

theorem moduleName_yields (s : State) : Yields (moduleName g ctx) (fun name _ =>
    (s.token == .stringLiteral) = false → ∃ id, name = .identifier id) s := by
  unfold moduleName
  refine .run rfl ?_
  split
  · rename_i hstring
    refine .run rfl ((stops_fail _).guard (.skip fun value _ => .pure fun h => ?_))
    exact absurd (h.symm.trans hstring) Bool.false_ne_true
  · exact stops_unexpected.guard (.skip fun id _ => .pure fun _ => ⟨id, rfl⟩)

/-- An entry that nothing is wrong with names a binding by a word. -/
theorem exportEntry_yields (s : State) : Yields (exportEntry g ctx) (fun entry _ =>
    entry.fault = none → ∃ id, entry.specifier.binding = .identifier id) s := by
  unfold exportEntry
  refine .run rfl ((localFault_yields s).bind fun fault s' ⟨hs', hfault⟩ => ?_)
  subst hs'
  refine (moduleName_yields s').bind fun binding _ hbinding => .skip fun isNamed _ => ?_
  have hword := fun h => hbinding (hfault h)
  split
  · exact .skip fun _ _ => .skip fun exported _ => .skip fun span _ => .pure hword
  · exact .skip fun exported _ => .skip fun span _ => .pure hword

end Entries

section Items

variable {c : Course} [hquiet : c.IsQuiet] {g : Phrases} [hg : g.Progresses c] {ctx : Context}
  {start : Nat} {exports : Exports}

/-- What the statement that is read exports is noted. -/
abbrev PublishesItem (c : Course) (exports : Exports) (step : Parser Statement) : Prop :=
  Publishes c exports (fun x after => Exports.Has x exports after) step

theorem publishes_importDeclaration :
    PublishesItem c exports (importDeclaration g ctx) := by
  unfold importDeclaration
  refine .skip fun start => .skip fun _ => .skip fun isBare => ?_
  extract_lets rest
  have hrest : ∀ found, PublishesItem c exports (rest found) := fun found =>
    .skip fun _ => .skip fun span => .pure (.of_quiet rfl rfl exports)
  clear_value rest
  split
  · exact .skip fun source => hrest ([], source)
  · exact .skip fun specifiers => .skip fun source => hrest (specifiers, source)

theorem publishes_exportAll : PublishesItem c exports (exportAll g ctx start) := by
  unfold exportAll
  refine .skip fun _ => .skip fun isNamed => ?_
  extract_lets rest
  have hrest : ∀ (name : Option ModuleName) after,
      Exports.Adds (name.toList.map ModuleName.text) exports after →
      Publishes c after (fun x after => Exports.Has x exports after) (rest name) :=
    fun name after hadds => .skip fun found => .skip fun _ => .skip fun span => .pure ⟨hadds, nofun⟩
  clear_value rest
  split
  · refine .skip fun _ => .skip fun nameStart => .skip fun name => ?_
    exact (publishes_addExport _ _).bind fun _ after hadds => hrest (some name) after hadds
  · exact hrest none exports (.refl exports)

theorem publishes_exportDefault (before : List Decorator) :
    PublishesItem c exports (exportDefault g ctx start before) := by
  unfold exportDefault
  refine .skip fun keywordStart => .skip fun _ => .skip fun found => ?_
  refine (publishes_addExport "default" keywordStart).bind fun _ after hadds => ?_
  have hitem : ∀ x : Statement, x.exportedNames = ["default"] → x.localExports = [] →
      Exports.Has x exports after := fun x hnames hlocals =>
    ⟨hnames ▸ hadds, by rw [hlocals]; exact nofun⟩
  refine .skip fun valueStart => .skip fun atClass => ?_
  split
  · exact .skip fun value => .skip fun span => .pure (hitem _ rfl rfl)
  refine .guard (stops_fail _) fun _ => .skip fun atFunction => ?_
  split
  · exact .skip fun value => .skip fun span => .pure (hitem _ rfl rfl)
  refine .skip fun atAsync => ?_
  split
  · exact .skip fun value => .skip fun span => .pure (hitem _ rfl rfl)
  · exact .skip fun value => .skip fun _ => .skip fun span => .pure (hitem _ rfl rfl)

omit hquiet hg in
/-- If nothing is wrong with any entry, then the check of them goes on. -/
theorem publishes_faults (entries : List ExportEntry) : Publishes c exports
    (fun _ after => after = exports ∧ ∀ entry ∈ entries, entry.fault = none)
    ((entries.findSome? ExportEntry.fault).forM
      (fun failure => throw failure : Failure → Parser PUnit)) := by
  cases hfound : entries.findSome? ExportEntry.fault with
  | none => exact .pure ⟨rfl, List.findSome?_eq_none_iff.mp hfound⟩
  | some failure => exact ⟨fun _ _ _ => trivial⟩

theorem publishes_exportNames : PublishesItem c exports (exportNames g ctx start) := by
  unfold exportNames
  refine .skip fun _ => ?_
  refine .known (fun s => Phrases.listed_yields .rightBrace (fun _ s => exportEntry_yields s) s)
    fun entries hwords => .skip fun _ => .skip fun isFrom => ?_
  extract_lets rest
  have hrest : ∀ found, PublishesItem c exports (rest found) := by
    intro found
    unfold rest
    extract_lets last
    have hlast : (found.isNone = true → ∀ entry ∈ entries, entry.fault = none) →
        PublishesItem c exports (last ⟨⟩) := by
      intro hnone
      have hnotes : Publishes c exports _ _ := publishes_forM
        (fun entry : ExportEntry => noteExport found.isNone entry.specifier)
        (fun entry => entry.specifier.exported.text)
        (N := fun entry after => found.isNone = true →
          after.NotesLocal entry.specifier.binding.text)
        (fun h hadds hlocal => hadds.notesLocal (h hlocal))
        (fun entry before => publishes_noteExport found.isNone entry.specifier) entries
      refine hnotes.bind fun _ after ⟨hadds, hlocals⟩ => .skip fun _ => .skip fun span => .pure ?_
      refine ⟨?_, ?_⟩
      · rw [Statement.exportedNames, List.map_map]
        exact hadds
      · intro exported hexported
        cases found with
        | some source => cases hexported
        | none =>
          rw [Option.map_none, Statement.localExports, List.map_map] at hexported
          obtain ⟨entry, hentry, rfl⟩ := List.mem_map.mp hexported
          obtain ⟨id, hid⟩ := hwords entry hentry (hnone rfl entry hentry)
          refine ⟨id, hid, ?_⟩
          have hlocal := hlocals entry hentry rfl
          rwa [hid] at hlocal
    clear_value last
    split
    · refine (publishes_faults entries).bind fun _ after ⟨hafter, hnone⟩ => ?_
      subst hafter
      exact hlast fun _ => hnone
    · rename_i hsome
      exact hlast fun hnone => absurd hnone hsome
  clear_value rest
  split
  · exact .skip fun _ => .skip fun source => hrest source
  · exact hrest none

section List

variable (hitem : ∀ exports, PublishesItem c exports (g.listItem ctx))

include hitem

/-- A declaration that is exported exports nothing by itself. -/
theorem publishes_exportDeclaration (decorators : List Decorator) :
    PublishesItem c exports (exportDeclaration g ctx start decorators) := by
  have hdeclaration : PublishesItem c exports (exportedDeclaration g ctx decorators) := by
    unfold exportedDeclaration
    refine .skip fun start => .skip fun token => ?_
    split
    · exact hitem exports
    · exact hitem exports
    · exact hitem exports
    · refine .skip fun escaped => ?_
      split
      · exact .stop stops_unexpected
      · exact hitem exports
    · refine .skip fun atFunction => ?_
      split
      · exact hitem exports
      · exact .stop stops_unexpected
    · exact .skip fun value => .pure (.of_quiet rfl rfl exports)
    · exact .stop stops_unexpected
  unfold exportDeclaration
  refine .skip fun declarationStart => hdeclaration.bind fun x between hx => ?_
  refine .guard (stops_failAt _ _) fun hdeclares => ?_
  have hadds : Exports.Adds [] exports between := by
    have hnames : x.exportedNames = [] := by
      cases x <;> first | rfl | exact absurd rfl hdeclares
    exact hnames ▸ hx.adds
  have hnotes : Publishes c between _ _ := publishes_forM
    (fun id : Identifier => addExport id.name id.span.start) Identifier.name
    (N := fun _ _ => True) (fun _ _ => trivial)
    (fun id before => ⟨fun s hs hbefore => ((publishes_addExport id.name id.span.start).ends s hs
      hbefore).mono fun _ _ h => ⟨h.1, h.2, trivial⟩⟩) x.declaredNames
  refine hnotes.bind fun _ after hnames => .skip fun span => .pure ⟨hadds.trans hnames.1, ?_⟩
  rintro _ ⟨⟩

theorem publishes_exportStatement (before : List Decorator) :
    PublishesItem c exports (exportStatement g ctx start before) := by
  unfold exportStatement
  refine .skip fun _ => .skip fun found => .skip fun token => .guard (stops_fail _) fun _ => ?_
  split
  · exact publishes_exportAll
  · exact publishes_exportDefault found
  · exact publishes_exportNames
  · exact publishes_exportDeclaration hitem found

theorem publishes_decoratedItem : PublishesItem c exports (decoratedItem g ctx start) := by
  unfold decoratedItem
  refine .skip fun found => .skip fun token => ?_
  split
  · exact .skip fun value => .pure (.of_quiet rfl rfl exports)
  · split
    · exact publishes_exportStatement hitem found
    · exact .stop (stops_fail _)
  · exact .stop (stops_fail _)

omit hquiet hg hitem in
theorem publishes_topLevelItem {word : String} {phrase : Parser Statement}
    (h : PublishesItem c exports phrase) :
      PublishesItem c exports (topLevelItem ctx word phrase) := by
  unfold topLevelItem
  exact .guard (stops_fail _) fun _ => h

omit hitem in
theorem publishes_variableStatement {kind : VariableKind} :
    PublishesItem c exports (variableStatement g ctx kind) := by
  unfold variableStatement
  exact .skip fun start => .skip fun _ => .skip fun ds => .skip fun _ => .skip fun span =>
    .pure (.of_quiet rfl rfl exports)

/-- Every item notes what it exports. -/
theorem publishes_listItem {keepsParens : Bool} [g.Chains keepsParens] :
    PublishesItem c exports (listItem g ctx) := by
  unfold listItem
  refine .skip fun start => .skip fun atFunction => ?_
  split
  · exact .skip fun f => .pure (.of_quiet rfl rfl exports)
  refine .skip fun atAsync => ?_
  split
  · exact .skip fun f => .pure (.of_quiet rfl rfl exports)
  refine .skip fun atClass => ?_
  split
  · exact .skip fun value => .pure (.of_quiet rfl rfl exports)
  refine .skip fun atSign => ?_
  split
  · exact publishes_decoratedItem hitem
  refine .skip fun atConst => ?_
  split
  · exact publishes_variableStatement
  refine .skip fun atLet => ?_
  split
  · exact publishes_variableStatement
  refine .skip fun atImport => ?_
  split
  · exact publishes_topLevelItem publishes_importDeclaration
  refine .skip fun atExport => ?_
  split
  · exact publishes_topLevelItem (publishes_exportStatement hitem [])
  have hproceeds : Proceeds c (statement g ctx .listItem) :=
    .of_passes (Nat.le_succ 1) fun _ => passes_statement
  have hproper : ∀ s, Yields (statement g ctx .listItem) (fun x _ => x.isModuleItem = false) s :=
    fun s => ((inferInstance : Makes (Node.Proper keepsParens)
      (statement g ctx .listItem)).yields s).mono fun x _ hx => hx.all.free
  rw [← bind_pure (statement g ctx .listItem)]
  exact .known hproper fun x hx => .pure (.of_plain hx exports)

end List

end Items

end EcmaSyntax.Grammar
