import Autogen.Project.Mapping
import Autogen.Proofs.Config.ListText
import Autogen.Proofs.Outcome
import Autogen.Proofs.Path.Collapse

/-!
# Readings of a project description

Whatever values a project description holds, reading it either gives settings and targets that are
in order, or it is refused because a value is of the wrong type or is not an acceptable one. Each
reader has one theorem that says both.

## Main definitions

* `ConfigFault.IsRefusal` — a fault by which a value is refused.
* `Recognised` — a mapping with known keys only.
* `SourceFile.Sound`, `Target.Sound` — sources and targets with clean paths and no empty texts.

## Main statements

* `ProjectSettings.meets_ofFields`, `TargetProperties.meets_ofFields`, `SourceFile.meets_ofValue` —
  what is read from the sections of a description.
* `TargetDefinition.meets_ofValue` — what is read from the description of a target.
-/

namespace Autogen

/-- A fault by which a value is refused: it is of the wrong type, or it is not an acceptable one,
which may be because it has no text. -/
def ConfigFault.IsRefusal (fault : ConfigFault) : Prop :=
  fault.category ∈ [.wrongType, .badValue, .noText]

/-- There is one fault that is none: to ask for the keys of what has none. -/
theorem ConfigFault.isRefusal_iff {fault : ConfigFault} : fault.IsRefusal ↔ fault ≠ .noKeys := by
  cases fault <;> simp [IsRefusal, category]

theorem meets_error {α : Type} {P : α → Prop} {fault : ConfigFault} (h : fault ≠ .noKeys) :
    Meets ConfigFault.IsRefusal P (.error fault) :=
  .error (ConfigFault.isRefusal_iff.mpr h)

open ConfigFault (IsRefusal)

/-- A mapping whose keys have allowed texts. -/
def Recognised (allowed : List String) (fields : Fields) : Prop :=
  ∀ pair ∈ fields, ∃ key ∈ allowed, pair.1.plainText = .ok key

/-! ## Texts, truth values and lists -/

theorem meets_plainText (value : Value) : Meets IsRefusal (fun _ => True) value.plainText := by
  unfold Value.plainText
  split
  · exact .ok trivial
  · exact meets_error nofun

theorem meets_shownText (value : Value) : Meets IsRefusal (fun _ => True) value.shownText := by
  unfold Value.shownText
  split
  · exact .ok trivial
  · exact meets_error nofun

theorem meets_toBool (name : Option String) (value : Value) :
    Meets IsRefusal (fun _ => True) (value.toBool name) := by
  unfold Value.toBool
  split
  case h_4 =>
    split
    · exact .ok trivial
    · exact meets_error nofun
  case h_5 => exact (meets_shownText _).bind fun _ _ _ => meets_error nofun
  all_goals exact .ok trivial

theorem meets_toOptionalString (name : Option String) (value : Value) :
    Meets IsRefusal (fun _ => True) (value.toOptionalString name) := by
  unfold Value.toOptionalString
  split
  case h_3 => exact (meets_plainText _).bind fun _ _ _ => .ok trivial
  case h_4 => exact meets_error nofun
  all_goals exact .ok trivial

theorem meets_itemStrings (name : Option String) (items : List Value) :
    Meets IsRefusal (fun texts => "" ∉ texts) (Value.itemStrings name items) := by
  induction items with
  | nil => exact .ok List.not_mem_nil
  | cons item rest ih =>
    cases item
    case string | bytes =>
      refine ih.bind fun later _ hlater => .ok ?_
      split
      · exact hlater
      · rename_i hne
        exact List.not_mem_cons_of_ne_of_not_mem (Ne.symm hne) hlater
    all_goals exact meets_error nofun

/-- A list of texts that is read from a value holds no empty one. -/
theorem meets_toStrings (name : Option String) (value : Value) :
    Meets IsRefusal (fun texts => "" ∉ texts) (value.toStrings name) := by
  cases value
  case null => exact .ok List.not_mem_nil
  case string | bytes => exact .ok (not_mem_expandList _)
  case list items => exact meets_itemStrings name items
  all_goals exact meets_error nofun

theorem meets_plainOr (default : String) (value : Value) :
    Meets IsRefusal (fun text => default ≠ "" → text ≠ "")
      (ProjectSettings.plainOr default value) := by
  unfold ProjectSettings.plainOr Value.plainText
  split
  · rename_i hset
    split
    · exact .ok fun _ => Value.plain_ne_empty hset
    · exact meets_error nofun
  · exact .ok id

theorem meets_generatedFilePolicy (value : Value) :
    Meets IsRefusal (fun _ => True) (GeneratedFilePolicy.ofValue value) := by
  refine (meets_plainText value).bind fun text _ _ => ?_
  split
  · exact .ok trivial
  · exact meets_error nofun

/-! ## Known keys -/

theorem meets_unknownKeys (fields : Fields) (allowed : List String) :
    Meets IsRefusal (fun keys => keys = [] → Recognised allowed fields)
      (unknownKeys fields allowed) := by
  have htext (pair : Value × Value) :
      Meets IsRefusal (fun key => pair.1.plainText = .ok key) pair.1.plainText :=
    (meets_plainText pair.1).self
  refine (Meets.mapM fun pair _ => htext pair).bind fun keys _ ⟨hall, _⟩ =>
    .ok fun hnone pair hpair => ?_
  obtain ⟨key, hmem, heq⟩ := hall pair hpair
  exact ⟨key, by simpa using List.filter_eq_nil_iff.mp hnone key hmem, heq⟩

theorem meets_rejectUnknownKeys (fields : Fields) (allowed : List String) (label : String) :
    Meets IsRefusal (fun _ => Recognised allowed fields)
      (rejectUnknownKeys fields allowed label) := by
  refine (meets_unknownKeys fields allowed).bind fun keys _ hkeys => ?_
  split
  · exact .ok (hkeys rfl)
  · exact meets_error nofun

/-! ## Sources -/

/-- The lists of texts of a source entry. -/
def SourceFile.lists (s : SourceFile) : List (List String) :=
  [s.autouicOptions, s.autorccOptions] ++ s.resourceInputs.toList

/-- A source entry with a clean path and no empty text in its lists. -/
structure SourceFile.Sound (s : SourceFile) : Prop where
  path : IsClean s.path
  lists : ∀ list ∈ s.lists, "" ∉ list

/-- A value that describes a source: a text, or a mapping with known keys. -/
inductive IsSourceEntry : Value → Prop where
  | text (s : String) : IsSourceEntry (.string s)
  | table {fields : Fields} (h : Recognised SourceFile.fieldNames fields) :
      IsSourceEntry (.map fields)

theorem SourceFile.meets_ofFields [Environment] (base : String) (fields : Fields) :
    Meets IsRefusal (fun s => Recognised SourceFile.fieldNames fields ∧ s.Sound)
      (SourceFile.ofFields base fields) := by
  unfold SourceFile.ofFields
  refine (meets_rejectUnknownKeys _ _ _).bind fun _ _ hkeys => ?_
  dsimp only
  -- The path is read in one of two ways, and so are the inputs of a resource file further down.
  split
  case' isTrue => refine (meets_plainText _).bind fun _ _ _ => ?_
  case' isFalse => rw [pure_bind]
  all_goals
    split
    · exact meets_error nofun
    · iterate 5 refine (meets_toBool _ _).bind fun _ _ _ => ?_
      refine (meets_toStrings _ _).bind fun uicOptions _ huic => ?_
      refine (meets_toStrings _ _).bind fun rccOptions _ hrcc => ?_
      have hinputs :
          Meets IsRefusal (fun inputs : Option (List String) => ∀ list ∈ inputs, "" ∉ list)
          (some <$> (Value.field "resource_inputs" fields).toStrings (some "resource_inputs")) :=
        (meets_toStrings _ _).map (by simp)
      split
      case' h_1 => refine .ok ⟨hkeys, ?_, by simp [lists, huic, hrcc]⟩
      case' h_2 =>
        refine hinputs.bind fun inputs _ hinputs =>
          .ok ⟨hkeys, ?_, by simpa [lists, huic, hrcc] using hinputs⟩
      all_goals
        dsimp only
        exact isClean_collapsePath _ base

/-- What is read from an entry is a sound source. -/
theorem SourceFile.meets_ofValue [Environment] (base : String) (value : Value) :
    Meets IsRefusal (fun s => IsSourceEntry value ∧ s.Sound) (SourceFile.ofValue base value) := by
  unfold SourceFile.ofValue
  split
  · rename_i text
    split
    · exact meets_error nofun
    · refine .ok ⟨.text text, ?_, by simp [lists]⟩
      dsimp only
      exact isClean_collapsePath _ base
  · exact (meets_ofFields base _).mono fun s ⟨hkeys, hsound⟩ => ⟨.table hkeys, hsound⟩
  · exact meets_error nofun

/-! ## Properties and settings -/

/-- The lists of texts among the properties of a target. -/
def TargetProperties.lists (p : TargetProperties) : List (List String) :=
  [p.automocMocOptions, p.automocMacroNames, p.automocDependFilters, p.autouicOptions,
    p.autouicSearchPaths, p.autorccOptions, p.autogenTargetDepends] ++ p.autouicConfigOptions.values

theorem meets_configListsOfFields (name : String) (fields : Fields) {done : ConfigLists}
    (hdone : ∀ list ∈ done.values, "" ∉ list) :
    Meets IsRefusal (fun lists => ∀ list ∈ lists.values, "" ∉ list)
      (TargetProperties.configListsOfFields name fields done) := by
  induction fields generalizing done with
  | nil => exact .ok hdone
  | cons pair rest ih =>
    refine (meets_plainText _).bind fun config _ _ => ?_
    refine (meets_toStrings _ _).bind fun list _ hlist => ?_
    exact ih (OrderedMap.forall_mem_values_insert hdone hlist config)

theorem meets_configLists (name : String) (value : Value) :
    Meets IsRefusal (fun lists => ∀ list ∈ lists.values, "" ∉ list)
      (TargetProperties.configLists name value) := by
  unfold TargetProperties.configLists
  split
  · exact .ok nofun
  · exact meets_configListsOfFields name _ nofun
  · exact meets_error nofun

/-- The properties of a target are read from known keys, and no list among them holds an empty
text. -/
theorem TargetProperties.meets_ofFields (name : String) (fields : Fields) :
    Meets IsRefusal (fun p => Recognised TargetProperties.fieldNames fields ∧
      ∀ list ∈ p.lists, "" ∉ list)
      (TargetProperties.ofFields name fields) := by
  unfold TargetProperties.ofFields
  refine (meets_rejectUnknownKeys _ _ _).bind fun _ _ hkeys => ?_
  iterate 3 refine (meets_toBool _ _).bind fun _ _ _ => ?_
  refine (meets_toStrings _ _).bind fun mocOptions _ hmoc => ?_
  refine (meets_toStrings _ _).bind fun macroNames _ hmacros => ?_
  refine (meets_toStrings _ _).bind fun dependFilters _ hfilters => ?_
  refine (meets_toStrings _ _).bind fun uicOptions _ huic => ?_
  refine (meets_configLists _ _).bind fun uicConfigOptions _ hconfig => ?_
  refine (meets_toStrings _ _).bind fun searchPaths _ hsearch => ?_
  refine (meets_toStrings _ _).bind fun rccOptions _ hrcc => ?_
  refine (meets_toStrings _ _).bind fun depends _ hdepends => ?_
  iterate 6 refine (meets_toOptionalString _ _).bind fun _ _ _ => ?_
  refine .ok ⟨hkeys, ?_⟩
  simpa [lists, hmoc, hmacros, hfilters, huic, hsearch, hrcc, hdepends] using hconfig

/-- The lists of texts among the settings of a project. -/
def ProjectSettings.lists (s : ProjectSettings) : List (List String) :=
  [s.configurations, s.compilerPredefinesCommand]

/-- The settings of a project are read from known keys, no list among them holds an empty text, and
there is a delimiter. -/
theorem ProjectSettings.meets_ofFields (fields : Fields) :
    Meets IsRefusal (fun s => Recognised ProjectSettings.fieldNames fields ∧
      (∀ list ∈ s.lists, "" ∉ list) ∧ s.sourceGroupDelimiter ≠ "")
      (ProjectSettings.ofFields fields) := by
  unfold ProjectSettings.ofFields
  refine (meets_rejectUnknownKeys _ _ _).bind fun _ _ hkeys => ?_
  iterate 2 refine (meets_toOptionalString _ _).bind fun _ _ _ => ?_
  split
  · dsimp only
    split
    case' h_1 => rw [pure_bind]
    case' h_2 => refine (meets_generatedFilePolicy _).bind fun _ _ _ => ?_
    all_goals
      refine (meets_plainOr _ _).bind fun _ _ _ => ?_
      refine (meets_toStrings _ _).bind fun configurations _ hconfigurations => ?_
      refine (meets_toBool _ _).bind fun _ _ _ => ?_
      iterate 4 refine (meets_toOptionalString _ _).bind fun _ _ _ => ?_
      refine (meets_toBool _ _).bind fun _ _ _ => ?_
      refine (meets_toStrings _ _).bind fun command _ hcommand => ?_
      iterate 5 refine (meets_toOptionalString _ _).bind fun _ _ _ => ?_
      refine (meets_plainOr _ _).bind fun delimiter _ hdelimiter => ?_
      iterate 2 refine (meets_toOptionalString _ _).bind fun _ _ _ => ?_
      exact .ok ⟨hkeys, by simp [lists, hconfigurations, hcommand], hdelimiter (by decide)⟩
  · exact meets_error nofun

/-! ## Targets -/

/-- The lists of texts of a target. -/
def Target.lists (t : Target) : List (List String) :=
  t.properties.lists ++ [t.utilities.toList, t.linkLibraries, t.includeDirectories,
    t.compileDefinitions] ++
    t.configIncludeDirectories.values ++ t.configCompileDefinitions.values

/-- A target with clean directories and no empty text in its lists. -/
structure Target.Sound (t : Target) : Prop where
  sourceDir : IsClean t.sourceDir
  binaryDir : IsClean t.binaryDir
  includes : ∀ directory ∈ t.includeDirectories, IsClean directory
  configIncludes : ∀ directories ∈ t.configIncludeDirectories.values, ∀ directory ∈ directories,
    IsClean directory
  lists : ∀ list ∈ t.lists, "" ∉ list

/-- The description of a target in order: its keys are known, its sources are a list of entries, and
its configurations are mappings with known keys. -/
structure IsTargetTable (fields : Fields) : Prop where
  keys : Recognised (structuralNames ++ TargetProperties.fieldNames) fields
  sources : ∀ value, Value.field? "sources" fields = some value →
    ∃ entries, value = .list entries ∧ ∀ entry ∈ entries, IsSourceEntry entry
  configs : Value.field "config" fields = .null ∨
    ∃ configs, Value.field "config" fields = .map configs ∧
    ∀ config ∈ configs, ∃ inner, config.2 = .map inner ∧ Recognised configFieldNames inner

namespace TargetDefinition

theorem meets_directory [Environment] (field base : String) (fields : Fields) :
    Meets IsRefusal IsClean (directory field base fields) :=
  (meets_plainOr _ _).bind fun _ _ _ => .ok (isClean_collapsePath _ _)

/-- Configurations without an empty text in their lists. -/
structure ConfigSection.Filled (s : ConfigSection) : Prop where
  includes : ∀ list ∈ s.includes.values, "" ∉ list
  definitions : ∀ list ∈ s.definitions.values, "" ∉ list

theorem filled_empty : ConfigSection.Filled {} :=
  ⟨nofun, nofun⟩

theorem meets_configSectionOfFields (name : String) (fields : Fields) {done : ConfigSection}
    (hdone : done.Filled) :
    Meets IsRefusal (fun s => s.Filled ∧
        ∀ config ∈ fields, ∃ inner, config.2 = .map inner ∧ Recognised configFieldNames inner)
      (configSectionOfFields name fields done) := by
  induction fields generalizing done with
  | nil => exact .ok ⟨hdone, nofun⟩
  | cons pair rest ih =>
    obtain ⟨config, value⟩ := pair
    cases value
    case map inner =>
      refine (meets_plainText _).bind fun config _ _ => ?_
      refine (meets_unknownKeys _ _).bind fun keys _ hkeys => ?_
      split
      · refine (meets_toStrings _ _).bind fun includes _ hincludes => ?_
        refine (meets_toStrings _ _).bind fun definitions _ hdefinitions => ?_
        have hnext : ConfigSection.Filled ⟨done.includes.insert config includes,
            done.definitions.insert config definitions⟩ :=
          ⟨OrderedMap.forall_mem_values_insert hdone.includes hincludes config,
            OrderedMap.forall_mem_values_insert hdone.definitions hdefinitions config⟩
        refine (ih hnext).mono fun s ⟨hfilled, hrest⟩ => ⟨hfilled, ?_⟩
        exact List.forall_mem_cons.mpr ⟨⟨inner, rfl, hkeys rfl⟩, hrest⟩
      · exact meets_error nofun
    all_goals exact (meets_plainText _).bind fun _ _ _ => meets_error nofun

theorem meets_configSection (name : String) (value : Value) :
    Meets IsRefusal (fun s => s.Filled ∧ (value = .null ∨ ∃ configs, value = .map configs ∧
        ∀ config ∈ configs, ∃ inner, config.2 = .map inner ∧ Recognised configFieldNames inner))
      (configSection name value) := by
  unfold configSection
  split
  · exact .ok ⟨filled_empty, .inl rfl⟩
  · refine (meets_configSectionOfFields name _ filled_empty).mono fun s ⟨hfilled, hconfigs⟩ => ?_
    exact ⟨hfilled, .inr ⟨_, rfl, hconfigs⟩⟩
  · exact meets_error nofun

theorem meets_sourceEntries (name : String) (fields : Fields) :
    Meets IsRefusal (fun entries => ∀ value, Value.field? "sources" fields = some value →
      value = .list entries) (sourceEntries name fields) := by
  unfold sourceEntries
  split
  · exact .ok (by simp [*])
  · exact .ok (by simp [*])
  · exact meets_error nofun

/-- The keys of a target are those of its structure and those of its properties. -/
theorem recognised_of_properties {fields : Fields}
    (h : Recognised TargetProperties.fieldNames (propertyFields fields)) :
    Recognised (structuralNames ++ TargetProperties.fieldNames) fields := by
  intro pair hpair
  by_cases hproperty : pair ∈ propertyFields fields
  · obtain ⟨key, hkey, htext⟩ := h pair hproperty
    exact ⟨key, List.mem_append_right _ hkey, htext⟩
  · obtain ⟨key, value⟩ := pair
    cases key
    case string key =>
      refine ⟨key, List.mem_append_left _ ?_, Value.plainText_string key⟩
      simpa [propertyFields, hpair] using hproperty
    all_goals simp [propertyFields, hpair] at hproperty

/-- A target as it is described: nothing is linked or remembered yet. -/
structure Plain (d : TargetDefinition) (name : String) : Prop where
  name : d.target.name = name
  unlinked : d.target.objectLibraries = [] ∧ d.target.consumers = []
  sources : d.target.sources = []
  unremembered : d.target.sourceCache = none

/-- A target with its sources that is in order. -/
structure Sound (d : TargetDefinition) : Prop where
  target : d.target.Sound
  sources : ∀ s ∈ d.sources, s.Sound

theorem meets_ofFields [Environment] (settings : ProjectSettings)
    (name : String) (fields : Fields) :
    Meets IsRefusal (fun d => IsTargetTable fields ∧ d.Plain name ∧ d.Sound)
      (ofFields settings name fields) := by
  unfold ofFields
  refine (meets_directory _ _ _).bind fun sourceDir _ hsourceDir => ?_
  refine (meets_directory _ _ _).bind fun binaryDir _ hbinaryDir => ?_
  refine (meets_sourceEntries _ _).bind fun entries _ hentries => ?_
  refine (Meets.mapM fun entry _ => SourceFile.meets_ofValue sourceDir entry).bind
    fun sources _ ⟨hread, hsources⟩ => ?_
  refine (meets_toStrings _ _).bind fun includes _ hincludes => ?_
  refine (meets_configSection _ _).bind fun config _ ⟨hfilled, hconfigs⟩ => ?_
  refine (TargetProperties.meets_ofFields _ _).bind fun properties _ ⟨hkeys, hproperties⟩ => ?_
  refine (meets_toStrings _ _).bind fun utilities _ hutilities => ?_
  refine (meets_toStrings _ _).bind fun libraries _ hlibraries => ?_
  refine (meets_toStrings _ _).bind fun definitions _ hdefinitions => ?_
  have hclean (directories : List String) :
      ∀ directory ∈ directories.map (collapsePath · sourceDir),
      IsClean directory := by
    simp only [List.forall_mem_map]
    exact fun directory _ => isClean_collapsePath directory sourceDir
  have hnonempty (directories : List String) : "" ∉ directories.map (collapsePath · sourceDir) :=
    fun hmem => (hclean directories "" hmem).ne_empty rfl
  refine .ok ⟨⟨recognised_of_properties hkeys, fun value hvalue => ?_, hconfigs⟩,
    ⟨rfl, ⟨rfl, rfl⟩, rfl, rfl⟩, ⟨hsourceDir, hbinaryDir, hclean includes, ?_, ?_⟩, fun s hs => ?_⟩
  · refine ⟨entries, hentries value hvalue, fun entry hentry => ?_⟩
    obtain ⟨s, -, htable, -⟩ := hread entry hentry
    exact htable
  · simp only [OrderedMap.values_mapValues, List.forall_mem_map]
    exact fun directories _ => List.forall_mem_map.mp (hclean directories)
  · simp only [Target.lists, OrderedMap.values_mapValues, List.forall_mem_append,
      List.forall_mem_cons, List.forall_mem_map, OrderedSet.mem_ofList]
    have hnone : ∀ list ∈ ([] : List (List String)), "" ∉ list :=
      fun _ hlist => absurd hlist List.not_mem_nil
    exact ⟨⟨⟨hproperties, hutilities, hlibraries, hnonempty includes, hdefinitions, hnone⟩,
      fun list _ => hnonempty list⟩, hfilled.definitions⟩
  · obtain ⟨entry, -, -, hsound⟩ := hsources s hs
    exact hsound

/-- What is read from the description of a target is a sound target with sound sources. -/
theorem meets_ofValue [Environment] (settings : ProjectSettings) (name : String) (value : Value) :
    Meets IsRefusal (fun d => (∃ fields, value = .map fields ∧ IsTargetTable fields) ∧
      d.Plain name ∧ d.Sound)
      (ofValue settings name value) := by
  unfold ofValue
  split
  · exact (meets_ofFields settings name _).mono fun d ⟨htable, hread⟩ => ⟨⟨_, rfl, htable⟩, hread⟩
  · exact meets_error nofun

end TargetDefinition

end Autogen
