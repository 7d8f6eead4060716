import BrewDB.Config.ConfigSet

/-!
# Layering

Merging patches lays them over a configuration by the priority of their scopes: a key gets the value of its
last entry in the last patch of the highest scope that mentions it. With a registry all patches are checked
first.
-/

namespace BrewDB.Config

open Layers

/-! ## The value of a key -/

/-- The scopes, the highest first. -/
def ConfigScope.descending : List ConfigScope := [.statement, .session, .system]

namespace ConfigPatch

/-- The entries as bindings. -/
def bindings (patch : ConfigPatch) : List (String × ConfigValue) :=
  patch.entries.map fun entry => (entry.key, entry.value)

/-- The value of the last entry of a key. -/
def lastEntry (patch : ConfigPatch) (key : String) : Option ConfigValue := lastValue key patch.bindings

/-- Some entry is for this key. -/
def mentions (patch : ConfigPatch) (key : String) : Bool := (patch.lastEntry key).isSome

end ConfigPatch

/-- The patches of a scope. -/
def patchesOf (patches : List ConfigPatch) (scope : ConfigScope) : List ConfigPatch :=
  patches.filter (·.scope = scope)

/-- The value that patches give to a key: its last entry in the last patch of the highest scope that mentions
it, else that of the base. -/
def layeredValue (base : ConfigSet) (patches : List ConfigPatch) (key : String) : Option ConfigValue :=
  match ConfigScope.descending.find? fun scope => (patchesOf patches scope).any (·.mentions key) with
  | some scope => (((patchesOf patches scope).filter (·.mentions key)).getLast?).bind (·.lastEntry key)
  | none => base.get key

section Values

variable {base config : ConfigSet} {patches : List ConfigPatch}

/-- Entries overwrite one by one. -/
theorem get_applyPatch (patch : ConfigPatch) (key : String) :
    (config.applyPatch patch).get key = (patch.lastEntry key).or (config.get key) := by
  unfold ConfigSet.applyPatch ConfigPatch.lastEntry ConfigPatch.bindings
  generalize patch.entries = entries
  induction entries generalizing config with
  | nil => rfl
  | cons entry entries ih =>
      rw [List.foldl_cons, ih, List.map_cons, ← List.singleton_append, lastValue_append]
      have hset : (config.set entry.key entry.value).get key =
          (lastValue key [(entry.key, entry.value)]).or (config.get key) := by
        rw [ConfigSet.set, ConfigSet.get, BTreeMap.get?_insert]
        by_cases hkey : entry.key = key
        · simp [lastValue, hkey]
        · simp [lastValue, hkey, Ne.symm hkey, ConfigSet.get]
      rw [hset, Option.or_assoc]

theorem get_foldl_applyPatch (patches : List ConfigPatch) (key : String) :
    (patches.foldl ConfigSet.applyPatch config).get key =
      (lastValue key (patches.flatMap ConfigPatch.bindings)).or (config.get key) := by
  induction patches generalizing config with
  | nil => rfl
  | cons patch patches ih =>
      rw [List.foldl_cons, ih, get_applyPatch, List.flatMap_cons, lastValue_append, Option.or_assoc]
      rfl

/-- The patches are applied scope by scope. -/
theorem ordered_eq (patches : List ConfigPatch) : ConfigSet.ordered patches =
    patchesOf patches .system ++ (patchesOf patches .session ++ patchesOf patches .statement) := by
  have hscope : ∀ scope : ConfigScope,
      patches.filter (fun patch => decide (patch.scope.priority = scope.priority)) = patchesOf patches scope := by
    intro scope
    refine List.filter_congr fun patch _ => ?_
    rw [decide_eq_decide]
    cases patch.scope <;> cases scope <;> decide
  have hbound : ∀ patch ∈ patches, patch.scope.priority < 3 := by
    intro patch _
    cases patch.scope <;> decide
  rw [ConfigSet.ordered, sortByKey_eq_flatMap hbound]
  simp only [List.range_succ, List.range_zero, List.nil_append, List.flatMap_append, List.flatMap_singleton,
    List.append_assoc]
  rw [← hscope .system, ← hscope .session, ← hscope .statement]
  rfl

/-- The last patch of a scope that mentions a key. -/
theorem lastValue_patches (patches : List ConfigPatch) (key : String) :
    lastValue key (patches.flatMap ConfigPatch.bindings) =
      ((patches.filter (·.mentions key)).getLast?).bind (·.lastEntry key) :=
  lastValue_flatMap key patches ConfigPatch.bindings

theorem isSome_lastValue_patches (patches : List ConfigPatch) (key : String) :
    (lastValue key (patches.flatMap ConfigPatch.bindings)).isSome = patches.any (·.mentions key) := by
  rw [Bool.eq_iff_iff, isSome_lastValue, List.any_eq_true]
  simp only [List.mem_flatMap, ConfigPatch.mentions, ConfigPatch.lastEntry, isSome_lastValue]
  constructor
  · rintro ⟨binding, ⟨patch, hpatch, hbinding⟩, hkey⟩
    exact ⟨patch, hpatch, binding, hbinding, hkey⟩
  · rintro ⟨patch, hpatch, binding, hbinding, hkey⟩
    exact ⟨binding, ⟨patch, hpatch, hbinding⟩, hkey⟩

/-- Merging gives every key its layered value. -/
theorem get_mergePatches (base : ConfigSet) (patches : List ConfigPatch) (key : String) :
    (base.mergePatches patches).get key = layeredValue base patches key := by
  rw [ConfigSet.mergePatches, get_foldl_applyPatch, ordered_eq, List.flatMap_append, List.flatMap_append,
    lastValue_append, lastValue_append]
  unfold layeredValue ConfigScope.descending
  simp only [List.find?_cons, List.find?_nil, ← isSome_lastValue_patches]
  cases hstatement : lastValue key ((patchesOf patches .statement).flatMap ConfigPatch.bindings) with
  | some value =>
      simp only [Option.isSome_some, Option.some_or]
      rw [← lastValue_patches, hstatement]
  | none =>
      cases hsession : lastValue key ((patchesOf patches .session).flatMap ConfigPatch.bindings) with
      | some value =>
          simp only [Option.isSome_some, Option.isSome_none, Option.none_or, Option.some_or]
          rw [← lastValue_patches, hsession]
      | none =>
          cases hsystem : lastValue key ((patchesOf patches .system).flatMap ConfigPatch.bindings) with
          | some value =>
              simp only [Option.isSome_some, Option.isSome_none, Option.none_or, Option.some_or]
              rw [← lastValue_patches, hsystem]
          | none => simp only [Option.isSome_none, Option.none_or]

/-- Lists that are permutations of each other and have the patches of each scope in one order. -/
def SameWithinScopes (patches patches' : List ConfigPatch) : Prop :=
  ∀ scope, patchesOf patches' scope = patchesOf patches scope

theorem ordered_of_sameWithinScopes {patches patches' : List ConfigPatch}
    (h : SameWithinScopes patches patches') : ConfigSet.ordered patches' = ConfigSet.ordered patches := by
  rw [ordered_eq, ordered_eq, h, h, h]

end Values

/-! ## Checks -/

section Checks

variable {registry : ConfigRegistry} {config : ConfigSet}

/-- The entry is registered, of the registered kind and allowed in the scope. -/
def ConfigRegistry.Admits (registry : ConfigRegistry) (scope : ConfigScope) (entry : ConfigEntry) : Prop :=
  ∃ definition, registry.definition entry.key = some definition ∧ definition.allowsScope scope = true ∧
    entry.value.kind = definition.valueKind

/-- The binding is registered and of the registered kind. -/
def ConfigRegistry.Knows (registry : ConfigRegistry) (key : String) (value : ConfigValue) : Prop :=
  ∃ definition, registry.definition key = some definition ∧ value.kind = definition.valueKind

theorem forM_eq_ok_iff {α : Type} {f : α → Except CommonError Unit} {l : List α} :
    l.forM f = .ok () ↔ ∀ a ∈ l, f a = .ok () := by
  induction l with
  | nil => simp [pure, Except.pure]
  | cons a l ih =>
      show (f a >>= fun _ => l.forM f) = .ok () ↔ _
      rw [List.forall_mem_cons, ExceptRun.bind_eq_ok, ← ih]
      constructor
      · rintro ⟨_, ha, hl⟩
        exact ⟨ha, hl⟩
      · rintro ⟨ha, hl⟩
        exact ⟨(), ha, hl⟩

theorem require_eq_ok_iff {key : String} {definition : ConfigDefinition} :
    registry.require key = .ok definition ↔ registry.definition key = some definition := by
  unfold ConfigRegistry.require
  cases registry.definition key <;> simp

theorem validateEntry_eq_ok_iff {scope : ConfigScope} {entry : ConfigEntry} :
    registry.validateEntry scope entry = .ok () ↔ registry.Admits scope entry := by
  simp only [ConfigRegistry.validateEntry, ExceptRun.bind_eq_ok, require_eq_ok_iff,
    ConfigDefinition.validateValue_eq_ok_iff, ConfigRegistry.Admits]
  refine exists_congr fun definition => and_congr_right fun _ => ?_
  constructor
  · rintro ⟨_, hscope, hvalue⟩
    exact ⟨ConfigDefinition.validateScope_eq_ok_iff.mp hscope, hvalue⟩
  · rintro ⟨hscope, hvalue⟩
    exact ⟨(), ConfigDefinition.validateScope_eq_ok_iff.mpr hscope, hvalue⟩

theorem validatePatch_eq_ok_iff {patch : ConfigPatch} :
    registry.validatePatch patch = .ok () ↔ ∀ entry ∈ patch.entries, registry.Admits patch.scope entry :=
  forM_eq_ok_iff.trans (forall₂_congr fun _ _ => validateEntry_eq_ok_iff)

theorem validateConfig_eq_ok_iff :
    registry.validateConfig config = .ok () ↔
      ∀ key value, config.get key = some value → registry.Knows key value := by
  rw [ConfigRegistry.validateConfig, forM_eq_ok_iff]
  simp only [ConfigRegistry.validateBinding, ExceptRun.bind_eq_ok, require_eq_ok_iff,
    ConfigDefinition.validateValue_eq_ok_iff]
  constructor
  · intro h key value hvalue
    exact h (key, value) (config.values.get?_eq_some_iff.mp hvalue)
  · intro h binding hbinding
    exact h binding.1 binding.2 (config.values.get?_eq_some_iff.mpr hbinding)

/-- A checked patch is applied, another one leaves the set as it is. -/
theorem applyPatchWithRegistry_eq {patch : ConfigPatch} :
    (registry.validatePatch patch = .ok () ∧
        config.applyPatchWithRegistry registry patch = (.ok (), config.applyPatch patch)) ∨
      ∃ error, registry.validatePatch patch = .error error ∧
        config.applyPatchWithRegistry registry patch = (.error error, config) := by
  unfold ConfigSet.applyPatchWithRegistry
  cases h : registry.validatePatch patch with
  | ok _ => exact .inl ⟨rfl, rfl⟩
  | error error => exact .inr ⟨error, rfl, rfl⟩

/-- Checked patches are applied one by one. -/
theorem applyAll_of_valid {patches : List ConfigPatch}
    (h : ∀ patch ∈ patches, registry.validatePatch patch = .ok ()) (config : ConfigSet) :
    ConfigSet.applyAll registry patches config = .ok (patches.foldl ConfigSet.applyPatch config) := by
  induction patches generalizing config with
  | nil => rfl
  | cons patch patches ih =>
      rw [ConfigSet.applyAll, ConfigSet.applyPatchWithRegistry, h patch List.mem_cons_self, List.foldl_cons]
      exact ih (fun patch' hpatch' => h patch' (List.mem_cons_of_mem _ hpatch')) _

/-- A patch that fails its check fails them all. -/
theorem applyAll_of_invalid {patches : List ConfigPatch} {patch : ConfigPatch} (hmem : patch ∈ patches)
    (h : registry.validatePatch patch ≠ .ok ()) (config : ConfigSet) :
    ∃ error, ConfigSet.applyAll registry patches config = .error error := by
  induction patches generalizing config with
  | nil => cases hmem
  | cons first patches ih =>
      rw [ConfigSet.applyAll]
      rcases @applyPatchWithRegistry_eq registry config first with ⟨hfirst, heq⟩ | ⟨error, -, heq⟩
      · rw [heq]
        rcases List.mem_cons.mp hmem with rfl | hrest
        · exact absurd hfirst h
        · exact ih hrest _
      · rw [heq]
        exact ⟨error, rfl⟩

/-- A checked patch keeps a configuration valid. -/
theorem validateConfig_applyPatch {patch : ConfigPatch} (hconfig : registry.validateConfig config = .ok ())
    (hpatch : registry.validatePatch patch = .ok ()) :
    registry.validateConfig (config.applyPatch patch) = .ok () := by
  rw [validateConfig_eq_ok_iff] at hconfig ⊢
  intro key value hvalue
  rw [get_applyPatch] at hvalue
  cases hlast : patch.lastEntry key with
  | none =>
      rw [hlast, Option.none_or] at hvalue
      exact hconfig key value hvalue
  | some last =>
      rw [hlast, Option.some_or] at hvalue
      obtain rfl := Option.some.inj hvalue
      obtain ⟨binding, hbinding, hlast⟩ := Option.map_eq_some_iff.mp hlast
      obtain ⟨hmem, hkey⟩ := List.mem_filter.mp (List.mem_of_getLast? hbinding)
      obtain ⟨entry, hentry, rfl⟩ := List.mem_map.mp hmem
      obtain ⟨definition, hdefinition, -, hkind⟩ := validatePatch_eq_ok_iff.mp hpatch entry hentry
      have hkey : entry.key = key := of_decide_eq_true hkey
      rw [← hkey, ← hlast]
      exact ⟨definition, hdefinition, hkind⟩

/-- Each step of the loop keeps a configuration valid. -/
theorem validateConfig_applyAll {patches : List ConfigPatch} {merged : ConfigSet}
    (hconfig : registry.validateConfig config = .ok ())
    (h : ConfigSet.applyAll registry patches config = .ok merged) :
    registry.validateConfig merged = .ok () := by
  induction patches generalizing config with
  | nil =>
      obtain rfl := Except.ok.inj h
      exact hconfig
  | cons patch patches ih =>
      rw [ConfigSet.applyAll] at h
      rcases @applyPatchWithRegistry_eq registry config patch with ⟨hpatch, heq⟩ | ⟨error, -, heq⟩
      · rw [heq] at h
        exact ih (validateConfig_applyPatch hconfig hpatch) h
      · rw [heq] at h
        cases h

/-- The defaults of a registry are valid. -/
theorem validateConfig_materializeDefaults (registry : ConfigRegistry) :
    registry.validateConfig registry.materializeDefaults = .ok () := by
  have hfold : ∀ (bindings : List (String × ConfigDefinition)) (config : ConfigSet),
      (∀ binding ∈ bindings, registry.definition binding.1 = some binding.2) →
      (∀ key value, config.get key = some value → registry.Knows key value) →
      ∀ key value, BTreeMap.get? (bindings.foldl
        (fun values binding => values.insert binding.1 binding.2.defaultValue) config.values) key = some value →
        registry.Knows key value := by
    intro bindings
    induction bindings with
    | nil => exact fun config _ hconfig => hconfig
    | cons binding bindings ih =>
        intro config hbindings hconfig
        obtain ⟨hbinding, hrest⟩ := List.forall_mem_cons.mp hbindings
        refine ih ⟨config.values.insert binding.1 binding.2.defaultValue⟩ hrest fun key value hvalue => ?_
        rw [ConfigSet.get, BTreeMap.get?_insert] at hvalue
        split at hvalue
        next hkey =>
          rw [hkey, ← Option.some.inj hvalue]
          exact ⟨binding.2, hbinding, binding.2.defaultKind⟩
        next => exact hconfig key value hvalue
  rw [validateConfig_eq_ok_iff]
  exact hfold registry.definitions.entries ⟨BTreeMap.empty⟩
    (fun binding hbinding => registry.definitions.get?_eq_some_iff.mpr hbinding) nofun

end Checks

/-! ## The laws -/

/-- All entries of all patches are registered, of the registered kind and allowed in the scope of their patch. -/
def ConfigRegistry.AdmitsAll (registry : ConfigRegistry) (patches : List ConfigPatch) : Prop :=
  ∀ patch ∈ patches, ∀ entry ∈ patch.entries, registry.Admits patch.scope entry

/-- What layering patches over a base promises. -/
structure Layered (base : ConfigSet) (registry : ConfigRegistry) (patches : List ConfigPatch) : Prop where
  values : ∀ key, (base.mergePatches patches).get key = layeredValue base patches key
  order : ∀ patches', SameWithinScopes patches patches' → base.mergePatches patches' = base.mergePatches patches
  admitted : registry.AdmitsAll patches →
    base.mergePatchesWithRegistry registry patches = .ok (base.mergePatches patches)
  rejected : ¬ registry.AdmitsAll patches →
    ∃ error, base.mergePatchesWithRegistry registry patches = .error error
  unchanged : ∀ patch, (base.applyPatchWithRegistry registry patch).1 ≠ .ok () →
    (base.applyPatchWithRegistry registry patch).2 = base
  valid : registry.validateConfig base = .ok () →
    (∀ merged, base.mergePatchesWithRegistry registry patches = .ok merged →
      registry.validateConfig merged = .ok ()) ∧
    ∀ patch, registry.validateConfig (base.applyPatchWithRegistry registry patch).2 = .ok ()

/-- Patches are layered by scope, and within a scope in the order in which they are given. -/
theorem layered (base : ConfigSet) (registry : ConfigRegistry) (patches : List ConfigPatch) :
    Layered base registry patches where
  values := get_mergePatches base patches
  order patches' h := by rw [ConfigSet.mergePatches, ConfigSet.mergePatches, ordered_of_sameWithinScopes h]
  admitted h := by
    refine applyAll_of_valid (fun patch hpatch => ?_) base
    exact validatePatch_eq_ok_iff.mpr (h patch ((perm_sortByKey patches).mem_iff.mp hpatch))
  rejected h := by
    simp only [ConfigRegistry.AdmitsAll, not_forall] at h
    obtain ⟨patch, hpatch, entry, hentry, hadmits⟩ := h
    refine applyAll_of_invalid ((perm_sortByKey patches).mem_iff.mpr hpatch) (fun hvalid => ?_) base
    exact hadmits (validatePatch_eq_ok_iff.mp hvalid entry hentry)
  unchanged patch h := by
    rcases @applyPatchWithRegistry_eq registry base patch with ⟨-, heq⟩ | ⟨error, -, heq⟩
    · rw [heq] at h
      exact absurd rfl h
    · rw [heq]
  valid hbase := by
    refine ⟨fun merged hmerged => validateConfig_applyAll hbase hmerged, fun patch => ?_⟩
    rcases @applyPatchWithRegistry_eq registry base patch with ⟨hpatch, heq⟩ | ⟨error, -, heq⟩
    · rw [heq]
      exact validateConfig_applyPatch hbase hpatch
    · rw [heq]
      exact hbase

end BrewDB.Config
