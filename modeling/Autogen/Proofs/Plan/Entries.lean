import Autogen.Plan.Entries
import Autogen.Proofs.Descriptor.Roundtrip
import Mathlib.Data.List.Nodup

/-!
# The entries of a plan

No two entries of a descriptor have the same key, whatever the names of the configurations are, so a
value that depends on the configuration can be looked up by key.

## Main definitions

* `Plan.baseKeys` — the keys that every descriptor has.
* `Plan.families` — the maps by configuration of a plan, with the starts of their keys.
* `inConfiguration?` — the value of a key in a configuration.

## Main statements

* `Plan.isKey_of_mem_baseKeys`, `Plan.not_prefix_of_mem_baseKeys` — the keys that every descriptor
  has are keys, and none of them begins as one of a value by configuration does.
* `Plan.nodup_keys` — the keys of a descriptor are distinct.
* `Plan.get?_decoded` — a value by configuration is found under its key.
* `Plan.inConfiguration?_decoded` — the value of a record is found in every configuration.
* `ConfigDiff.get?_overrides_of`, `ConfigDiff.valueFor_of` — a record gives the values that it was
  made from.
-/

namespace Autogen

/-- A map that is made of keys with what is computed for them. -/
theorem OrderedMap.get?_ofList_map {κ α : Type} [DecidableEq κ] (keys : List κ)
    (f : κ → α) (key : κ) :
    (OrderedMap.ofList (keys.map fun k => (k, f k))).get? key =
      if key ∈ keys then some (f key) else none := by
  cases hget : (OrderedMap.ofList (keys.map fun k => (k, f k))).get? key with
  | some value =>
    obtain ⟨other, hother, heq⟩ := List.mem_map.mp (OrderedMap.mem_of_get?_ofList hget)
    cases heq
    rw [if_pos hother]
  | none =>
    rw [OrderedMap.get?_eq_none, OrderedMap.mem_keys_ofList, List.map_map] at hget
    rw [if_neg fun hmem => hget (List.mem_map.mpr ⟨key, hmem, rfl⟩)]

namespace ConfigDiff

variable {baseline config : String} {configs : List String} {compute : String → String}

/-- A record has a value of its own for the configurations in which it is not that of the
baseline. -/
theorem get?_overrides_of : (ConfigDiff.of baseline configs compute).overrides.get? config =
    if config ∈ configs ∧ compute config ≠ compute baseline then
      some (compute config) else none := by
  rw [of, List.filter_map, OrderedMap.get?_ofList_map]
  simp

theorem mem_keys_of : config ∈ (ConfigDiff.of baseline configs compute).overrides.keys ↔
    config ∈ configs ∧ compute config ≠ compute baseline := by
  rw [← not_iff_not, ← OrderedMap.get?_eq_none, get?_overrides_of]
  simp

/-- The record of a value gives the value in every configuration that it was made from. -/
theorem valueFor_of (h : config ∈ configs) :
    (ConfigDiff.of baseline configs compute).valueFor config = compute config := by
  rw [valueFor, get?_overrides_of]
  by_cases hsame : compute config = compute baseline
  · rw [if_neg fun hne => hne.2 hsame, hsame]
    rfl
  · rw [if_pos ⟨h, hsame⟩, Option.getD_some]

end ConfigDiff

namespace Plan

/-- The keys that every descriptor has. -/
def baseKeys : List String :=
  ["AM_BUILD_DIR", "AM_QT_VERSION_MAJOR", "AM_SOURCES", "AM_HEADERS", "AM_MOC_SKIP",
    "AM_QT_MOC_EXECUTABLE", "AM_MOC_INCLUDES", "AM_MOC_DEFINITIONS", "AM_MOC_OPTIONS",
    "AM_MOC_RELAXED_MODE", "AM_MOC_MACRO_NAMES", "AM_MOC_DEPEND_FILTERS", "AM_MOC_PREDEFS_CMD",
    "AM_UIC_SKIP", "AM_QT_UIC_EXECUTABLE", "AM_UIC_TARGET_OPTIONS", "AM_UIC_SEARCH_PATHS",
    "AM_UIC_OPTIONS_FILES", "AM_UIC_OPTIONS_OPTIONS", "AM_QT_RCC_EXECUTABLE", "AM_RCC_SOURCES",
    "AM_RCC_INPUTS", "AM_RCC_OPTIONS_FILES", "AM_RCC_OPTIONS_OPTIONS"]

theorem keys_entries (p : Plan) : p.entries.map Prod.fst = baseKeys := rfl

/-- The starts of the keys of values by configuration. -/
def starts : List String :=
  ["AM_CONFIG_SUFFIX", "AM_MOC_DEFINITIONS", "AM_MOC_INCLUDES", "AM_UIC_TARGET_OPTIONS"]

/-- The key of a value in a configuration. -/
def configKey (start config : String) : String :=
  start ++ "_" ++ config

theorem isKey_of_mem_baseKeys : ∀ key ∈ baseKeys, Descriptor.IsKey key := by
  decide +kernel

theorem isKey_of_mem_starts : ∀ start ∈ starts, Descriptor.IsKey (start ++ "_") := by
  decide +kernel

/-- No key that every descriptor has begins as the keys of values by configuration do. -/
theorem not_prefix_of_mem_baseKeys :
    ∀ start ∈ starts, ∀ key ∈ baseKeys, ¬ (start ++ "_").toList <+: key.toList := by
  decide +kernel

/-- The maps by configuration of a plan, with the starts of their keys. -/
def families (p : Plan) : List (String × OrderedMap String String) :=
  [("AM_CONFIG_SUFFIX", p.configSuffixes)] ++
    (match p.moc with
      | some moc =>
        [("AM_MOC_DEFINITIONS", moc.definitions.overrides),
          ("AM_MOC_INCLUDES", moc.includes.overrides)]
      | none => []) ++
    (match p.uic with
      | some uic => [("AM_UIC_TARGET_OPTIONS", uic.targetOptions.overrides)]
      | none => [])

theorem configurationEntries_eq (p : Plan) :
    p.configurationEntries = p.families.flatMap fun family =>
      overrideEntries family.1 family.2 := by
  unfold configurationEntries families
  cases p.moc <;> cases p.uic <;> simp

theorem starts_families (p : Plan) : (p.families.map Prod.fst).Sublist starts := by
  unfold families
  cases p.moc <;> cases p.uic <;> simp [starts]

/-- What holds of the maps by configuration of a plan. -/
theorem forall_mem_families (p : Plan) (P : OrderedMap String String → Prop) :
    (∀ family ∈ p.families, P family.2) ↔ P p.configSuffixes ∧
      (∀ moc, p.moc = some moc → P moc.definitions.overrides ∧ P moc.includes.overrides) ∧
      ∀ uic, p.uic = some uic → P uic.targetOptions.overrides := by
  unfold families
  cases p.moc <;> cases p.uic <;> simp [and_assoc]

/-! ## Keys -/

theorem toList_configKey (start config : String) :
    (configKey start config).toList = (start ++ "_").toList ++ config.toList :=
  String.toList_append

theorem configKey_injective (start : String) : Function.Injective (configKey start) := by
  intro a b hab
  have hchars := congrArg String.toList hab
  rw [toList_configKey, toList_configKey] at hchars
  exact String.toList_injective (List.append_cancel_left hchars)

/-- The start of a key and the character behind it are seen in the key. -/
theorem prefix_configKey (start config : String) :
    (start ++ "_").toList <+: (configKey start config).toList := by
  rw [toList_configKey]
  exact List.prefix_append _ _

/-- No key that every descriptor has is the key of a value in a configuration. -/
theorem configKey_not_mem_baseKeys {start : String} (hstart : start ∈ starts) (config : String) :
    configKey start config ∉ baseKeys :=
  fun hmem => not_prefix_of_mem_baseKeys start hstart _ hmem (prefix_configKey start config)

/-- Keys of values in configurations are the same only if they start in the same way. -/
theorem start_eq_of_configKey {start start' config config' : String} (hstart : start ∈ starts)
    (hstart' : start' ∈ starts) (h : configKey start config = configKey start' config') :
    start = start' := by
  have hapart : ∀ start ∈ starts, ∀ start' ∈ starts,
      (start ++ "_").toList <+: (start' ++ "_").toList → start = start' := by
    decide
  have hprefix := prefix_configKey start config
  rw [h] at hprefix
  rcases List.prefix_or_prefix_of_prefix hprefix (prefix_configKey start' config') with hle | hle
  · exact hapart start hstart start' hstart' hle
  · exact (hapart start' hstart' start hstart hle).symm

theorem mem_overrideEntries {start : String} {values : OrderedMap String String}
    {entry : Descriptor.Entry} :
    entry ∈ overrideEntries start values ↔
      ∃ config value, values.get? config = some value ∧
        entry = (configKey start config, value) := by
  unfold overrideEntries
  rw [List.mem_map]
  constructor
  · rintro ⟨config, hconfig, rfl⟩
    have hmem : config ∈ values.keys := (List.mergeSort_perm values.keys _).mem_iff.mp hconfig
    cases hget : values.get? config with
    | none => exact absurd hmem (OrderedMap.get?_eq_none.mp hget)
    | some value => exact ⟨config, value, hget, rfl⟩
  · rintro ⟨config, value, hget, rfl⟩
    refine ⟨config, (List.mergeSort_perm values.keys _).mem_iff.mpr ?_, by rw [hget]; rfl⟩
    exact List.mem_map_of_mem (OrderedMap.get?_eq_some.mp hget)

theorem mem_configurationEntries {p : Plan} {entry : Descriptor.Entry} :
    entry ∈ p.configurationEntries ↔ ∃ family ∈ p.families, ∃ config value,
      family.2.get? config = some value ∧ entry = (configKey family.1 config, value) := by
  rw [configurationEntries_eq, List.mem_flatMap]
  simp only [mem_overrideEntries]

theorem nodup_overrideEntries (start : String) (values : OrderedMap String String) :
    ((overrideEntries start values).map Prod.fst).Nodup := by
  have hkeys : (overrideEntries start values).map Prod.fst =
      (Text.sorted values.keys).map (configKey start) := by
    rw [overrideEntries, List.map_map]
    rfl
  rw [hkeys]
  exact ((List.mergeSort_perm values.keys _).nodup_iff.mpr values.nodup_keys).map
    (configKey_injective start)

theorem mem_starts {p : Plan} {family : String × OrderedMap String String}
    (h : family ∈ p.families) : family.1 ∈ starts :=
  (starts_families p).subset (List.mem_map_of_mem h)

/-- The keys of a descriptor are distinct. -/
theorem nodup_keys (p : Plan) : ((p.entries ++ p.configurationEntries).map Prod.fst).Nodup := by
  rw [List.map_append, List.nodup_append, keys_entries, configurationEntries_eq, List.map_flatMap]
  refine ⟨by decide +kernel, List.nodup_flatMap.mpr ⟨fun family _ => nodup_overrideEntries _ _, ?_⟩,
    ?_⟩
  · have hstarts : p.families.Pairwise fun family family' => family.1 ≠ family'.1 :=
      List.pairwise_map.mp ((starts_families p).nodup (by decide))
    refine hstarts.imp_of_mem fun {family family'} hmem hmem' hne key hkey hkey' => hne ?_
    obtain ⟨entry, hentry, rfl⟩ := List.mem_map.mp hkey
    obtain ⟨entry', hentry', heq⟩ := List.mem_map.mp hkey'
    obtain ⟨config, value, -, rfl⟩ := mem_overrideEntries.mp hentry
    obtain ⟨config', value', -, rfl⟩ := mem_overrideEntries.mp hentry'
    exact (start_eq_of_configKey (mem_starts hmem') (mem_starts hmem) heq).symm
  · rintro key hbase key' hkey' rfl
    obtain ⟨family, hfamily, hkey⟩ := List.mem_flatMap.mp hkey'
    obtain ⟨entry, hentry, rfl⟩ := List.mem_map.mp hkey
    obtain ⟨config, value, -, rfl⟩ := mem_overrideEntries.mp hentry
    exact configKey_not_mem_baseKeys (mem_starts hfamily) config hbase

/-! ## Looking up values -/

variable {p : Plan} {decoded : OrderedMap String String}

/-- A value by configuration is found under its key. -/
theorem get?_decoded (h : decoded.toList = p.entries ++ p.configurationEntries)
    {family : String × OrderedMap String String} (hfamily : family ∈ p.families) (config : String) :
    decoded.get? (configKey family.1 config) = family.2.get? config := by
  refine Option.ext fun value => ?_
  rw [OrderedMap.get?_eq_some, h, List.mem_append, mem_configurationEntries]
  constructor
  · rintro (hbase | ⟨family', hfamily', config', value', hget, heq⟩)
    · have hkey : configKey family.1 config ∈ p.entries.map Prod.fst := List.mem_map_of_mem hbase
      exact absurd hkey (configKey_not_mem_baseKeys (mem_starts hfamily) config)
    · obtain ⟨hkey, rfl⟩ := Prod.mk.inj heq
      have hstart := start_eq_of_configKey (mem_starts hfamily) (mem_starts hfamily') hkey
      have hnodup : (p.families.map Prod.fst).Nodup := (starts_families p).nodup (by decide)
      obtain rfl : family = family' := List.inj_on_of_nodup_map hnodup hfamily hfamily' hstart
      rwa [configKey_injective _ hkey]
  · intro hget
    exact .inr ⟨family, hfamily, config, value, hget, rfl⟩

/-- The value of a key in a configuration: that of the key with the name of the configuration behind
it, else that of the key itself. -/
def inConfiguration? (decoded : OrderedMap String String) (start config : String) : Option String :=
  (decoded.get? (configKey start config)).or (decoded.get? start)

/-- The value of a record is found in every configuration. -/
theorem inConfiguration?_decoded (h : decoded.toList = p.entries ++ p.configurationEntries)
    {start : String} {diff : ConfigDiff} (hfamily : (start, diff.overrides) ∈ p.families)
    (hbase : (start, diff.baseline) ∈ p.entries) (config : String) :
    inConfiguration? decoded start config = some (diff.valueFor config) := by
  have hstart : decoded.get? start = some diff.baseline := by
    rw [OrderedMap.get?_eq_some, h]
    exact List.mem_append_left _ hbase
  have hconfig := get?_decoded h hfamily config
  rw [inConfiguration?, hconfig, hstart, ConfigDiff.valueFor]
  cases diff.overrides.get? config <;> rfl

/-! ## Writing down -/

/-- A plan can be written down if its configurations have names of key characters. -/
theorem writable_sections (hkeys : ∀ family ∈ p.families, ∀ config ∈ family.2.keys,
    ∀ c ∈ config.toList, Descriptor.isKeyChar c) : ∀ s ∈ p.sections, s.Writable := by
  intro s hs
  rcases List.mem_cons.mp hs with rfl | hs
  · have htitle : ∀ c ∈ "Meta".toList, c ≠ '\n' ∧ c ≠ '\r' := by simp
    refine ⟨htitle, fun entry hentry => isKey_of_mem_baseKeys _ ?_⟩
    rw [← keys_entries p]
    exact List.mem_map_of_mem hentry
  · obtain rfl := List.mem_singleton.mp hs
    have htitle : ∀ c ∈ "Configuration specific options".toList, c ≠ '\n' ∧ c ≠ '\r' := by simp
    refine ⟨htitle, fun entry hentry => ?_⟩
    obtain ⟨family, hfamily, config, value, hget, rfl⟩ := mem_configurationEntries.mp hentry
    have hstart := isKey_of_mem_starts family.1 (mem_starts hfamily)
    have hconfig : config ∈ family.2.keys := List.mem_map_of_mem (OrderedMap.get?_eq_some.mp hget)
    refine ⟨fun hnil => hstart.1 ?_, fun c hc => ?_⟩
    · rw [toList_configKey] at hnil
      exact (List.append_eq_nil_iff.mp hnil).1
    · rw [toList_configKey, List.mem_append] at hc
      rcases hc with hc | hc
      · exact hstart.2 c hc
      · exact hkeys family hfamily config hconfig c hc

end Plan

end Autogen
