import InfSplitter.Configuration.Load
import Mathlib.Data.List.Dedup
import Mathlib.Data.List.Induction
import Mathlib.Data.List.Pairwise

/-!
# Where a model is routed

The loop over the sections refuses a section by itself, or because of one that came before: a second
default section, or a model that is listed already. Both are relations between two sections that do
not care which of them comes first, so what is accepted does not depend on the order
(`loads_iff`, `Consistent.perm`).

What the loop has built after some sections is said by `Loaded`: every section is there, every
listed model leads to the section that lists it, and the default is the default section. A route is
read off these three, so it is always that of a section (`resolveRoute_section`, `sent_to_section`).
-/

set_option autoImplicit false

namespace InfSplitter.Configuration

open Session

/-- An entry of the provider map. -/
abbrev Entry := String × ProviderConfigRaw

/-! ## What a section lists -/

def ModelsField.isDefault : ModelsField → Bool
  | .single value => value == "default"
  | .list _ => false

def ModelsField.names : ModelsField → List String
  | .single value => if value = "default" then [] else [value]
  | .list values => values

def Entry.isDefault (e : Entry) : Bool := e.2.models.isDefault

def Entry.names (e : Entry) : List String := e.2.models.names

/-- Two sections that may stand in one file. -/
def Compatible (a b : Entry) : Prop :=
  ¬ (a.isDefault = true ∧ b.isDefault = true) ∧ ∀ model ∈ a.names, model ∉ b.names

theorem Compatible.symm {a b : Entry} (h : Compatible a b) : Compatible b a :=
  ⟨fun hdefault => h.1 hdefault.symm, fun model hb ha => h.2 model ha hb⟩

instance : Std.Symm Compatible := ⟨fun _ _ => Compatible.symm⟩

section
variable (env : Environment)

/-- Every section can be read, and any two of them are compatible. -/
structure Consistent (entries : List Entry) : Prop where
  reads : ∀ e ∈ entries, ∃ read, readSection env e.1 e.2 = .ok read
  compatible : entries.Pairwise Compatible

/-- What has been built of some sections. -/
structure Loaded (entries : List Entry) (loading : Loading) : Prop where
  sections : ∀ e ∈ entries, ∃ read, readSection env e.1 e.2 = .ok (e.isDefault, read) ∧
    loading.sections.lookup e.1 = some read
  routes : ∀ model name, loading.modelRoutes.lookup model = some name ↔
    ∃ e ∈ entries, e.1 = name ∧ model ∈ e.names
  default : ∀ name, loading.defaultSection = some name ↔
    ∃ e ∈ entries, e.1 = name ∧ e.isDefault = true

/-- The route of a section, as far as dispatching looks at it: its own caps or the global ones,
and an endpoint. -/
structure RouteOf (file : FileConfig) (e : Entry) (route : RouteTarget) : Prop where
  sectionName : route.sectionName = e.1
  endpoint : route.endpointOpenai.isSome ∨ route.endpointAnthropic.isSome ∨
    route.endpointInteractions.isSome
  maxTokens : route.maxTokens = e.2.maxTokens.or file.defaultCaps.maxTokens
  maxOutputTokens : route.maxOutputTokens = e.2.maxOutputTokens.or file.defaultCaps.maxOutputTokens
  maxCompletionTokens : route.maxCompletionTokens =
    e.2.maxCompletionTokens.or file.defaultCaps.maxCompletionTokens

end

/-- A model goes to the one section that lists it, then to the one default section, and is refused
if there is neither. -/
structure RoutesWell (file : FileConfig) (config : Config) : Prop where
  listed : ∀ model, ∀ e ∈ file.providers, model ∈ Entry.names e →
    (∀ other ∈ file.providers, model ∈ Entry.names other → other = e) ∧
      ∃ route, config.resolveRoute model = .ok route ∧ RouteOf file e route
  default : ∀ e ∈ file.providers, Entry.isDefault e = true →
    (∀ other ∈ file.providers, Entry.isDefault other = true → other = e) ∧
      ∀ model, (∀ other ∈ file.providers, model ∉ Entry.names other) →
        ∃ route, config.resolveRoute model = .ok route ∧ RouteOf file e route
  unroutable : ∀ model, (∀ e ∈ file.providers, model ∉ Entry.names e) →
    (∀ e ∈ file.providers, Entry.isDefault e = false) →
    config.resolveRoute model = .error (.unroutableModel model)
  neverInternal : ∀ model name message,
    config.resolveRoute model ≠ .error (.provider name message)

/-! ## One section -/

theorem bind_eq_ok {ε α β : Type} {x : Except ε α} {f : α → Except ε β} {b : β} :
    (x >>= f) = .ok b ↔ ∃ a, x = .ok a ∧ f a = .ok b := by
  cases x <;> simp [bind, Except.bind]

theorem map_eq_ok {ε α β : Type} {x : Except ε α} {f : α → β} {b : β} :
    x.map f = .ok b ↔ ∃ a, x = .ok a ∧ f a = b := by
  cases x <;> simp [Except.map]

theorem map_accepts {ε α β : Type} {x : Except ε α} {f : α → β} :
    (∃ b, x.map f = .ok b) ↔ ∃ a, x = .ok a := by
  cases x <;> simp [Except.map]

theorem Entry.names_of_isDefault {e : Entry} (h : e.isDefault = true) : e.names = [] := by
  unfold Entry.isDefault at h
  unfold Entry.names
  cases hmodels : e.2.models with
  | single value =>
    simp only [hmodels, ModelsField.isDefault, beq_iff_eq] at h
    simp [ModelsField.names, h]
  | list values => simp [hmodels, ModelsField.isDefault] at h

section
variable {env : Environment} {name : String} {raw : ProviderConfigRaw}

theorem parseModels_ok {models : ModelsField} {isDefault : Bool} {modelNames : List String}
    (h : parseModels name models = .ok (isDefault, modelNames)) :
    isDefault = models.isDefault ∧ modelNames = models.names.dedup := by
  cases models with
  | single value =>
    unfold parseModels at h
    dsimp only at h
    split at h
    · next hdefault =>
      cases h
      simp [ModelsField.isDefault, ModelsField.names, hdefault, List.dedup_nil]
    · next hdefault =>
      split at h
      · cases h
      · cases h
        have hdedup : [value].dedup = [value] := (List.nodup_singleton value).dedup
        simp [ModelsField.isDefault, ModelsField.names, hdefault, hdedup]
  | list values =>
    unfold parseModels at h
    dsimp only at h
    repeat (split at h; · cases h)
    cases h
    exact ⟨rfl, rfl⟩

/-- **What a section that can be read is read as.** -/
theorem readSection_ok {isDefault : Bool} {read : ProviderSection}
    (h : readSection env name raw = .ok (isDefault, read)) :
    isDefault = raw.models.isDefault ∧ read.modelNames = raw.models.names.dedup ∧
      ∀ file : FileConfig, RouteOf file (name, raw) (read.route file.defaultCaps) := by
  unfold readSection at h
  dsimp only at h
  split at h
  · cases h
  · next hendpoint =>
    obtain ⟨proxyLimit, _, h⟩ := bind_eq_ok.mp h
    obtain ⟨apiKey, _, h⟩ := bind_eq_ok.mp h
    obtain ⟨⟨isDefault', modelNames⟩, hmodels, h⟩ := bind_eq_ok.mp h
    obtain ⟨hdefault, hnames⟩ := parseModels_ok hmodels
    have hone : readEndpoint raw.endpointOpenai ≠ none ∨
        readEndpoint raw.endpointAnthropic ≠ none ∨ readEndpoint raw.endpointInteractions ≠ none := by
      by_contra hnone
      push Not at hnone
      exact hendpoint hnone
    simp only [ne_eq, Option.ne_none_iff_isSome] at hone
    dsimp only at h
    split at h
    · obtain ⟨_, _, h⟩ := bind_eq_ok.mp h
      cases h
      exact ⟨hdefault, hnames, fun _ => ⟨rfl, hone, rfl, rfl, rfl⟩⟩
    · cases h
      exact ⟨hdefault, hnames, fun _ => ⟨rfl, hone, rfl, rfl, rfl⟩⟩

end

/-! ## The loop -/

theorem addModels_accepts {name : String} {models : List String} {routes : StrMap String} :
    (∃ routes', addModels name models routes = .ok routes') ↔
      models.Nodup ∧ ∀ model ∈ models, routes.lookup model = none := by
  induction models generalizing routes with
  | nil => simp [addModels]
  | cons model rest ih =>
    unfold addModels
    cases hlookup : routes.lookup model with
    | some existing => simp [hlookup]
    | none =>
      rw [ih, List.nodup_cons, List.forall_mem_cons]
      constructor
      · rintro ⟨hnodup, habsent⟩
        refine ⟨⟨fun hmem => ?_, hnodup⟩, hlookup, fun other hother => ?_⟩
        · simpa using habsent model hmem
        · have hne : other ≠ model := by
            rintro rfl
            simpa using habsent other hother
          simpa [AList.lookup_insert_ne hne] using habsent other hother
      · rintro ⟨⟨hnotMem, hnodup⟩, _, habsent⟩
        refine ⟨hnodup, fun other hother => ?_⟩
        have hne : other ≠ model := ne_of_mem_of_not_mem hother hnotMem
        rw [AList.lookup_insert_ne hne]
        exact habsent other hother

theorem lookup_addModels {name : String} {models : List String} {routes routes' : StrMap String}
    (h : addModels name models routes = .ok routes') (model : String) :
    routes'.lookup model = if model ∈ models then some name else routes.lookup model := by
  induction models generalizing routes with
  | nil => simp_all [addModels]
  | cons first rest ih =>
    unfold addModels at h
    split at h
    · cases h
    · rw [ih h]
      by_cases hfirst : model = first
      · subst hfirst
        simp
      · simp [hfirst, AList.lookup_insert_ne hfirst]

section
variable {env : Environment} {hashOrder : HashOrder} {entries : List Entry} {loading : Loading}
  {e : Entry}

theorem Loaded.empty : Loaded env [] Loading.empty where
  sections := by simp
  routes := by simp [Loading.empty]
  default := by simp [Loading.empty]

theorem Loaded.no_default_iff (h : Loaded env entries loading) :
    loading.defaultSection = none ↔ ∀ a ∈ entries, a.isDefault = false := by
  rw [Option.eq_none_iff_forall_ne_some]
  constructor
  · intro hnone a ha
    by_contra hdefault
    exact hnone a.1 ((h.default a.1).mpr ⟨a, ha, rfl, by simpa using hdefault⟩)
  · intro hnone name hname
    obtain ⟨a, ha, -, hdefault⟩ := (h.default name).mp hname
    simp [hnone a ha] at hdefault

theorem Loaded.not_listed_iff (h : Loaded env entries loading) (model : String) :
    loading.modelRoutes.lookup model = none ↔ ∀ a ∈ entries, model ∉ a.names := by
  rw [Option.eq_none_iff_forall_ne_some]
  constructor
  · intro hnone a ha hlisted
    exact hnone a.1 ((h.routes model a.1).mpr ⟨a, ha, rfl, hlisted⟩)
  · intro hnone name hname
    obtain ⟨a, ha, -, hlisted⟩ := (h.routes model name).mp hname
    exact hnone a ha hlisted

theorem HashOrder.mem_order {elements : List String} {x : String} :
    x ∈ hashOrder.order elements ↔ x ∈ elements := (hashOrder.perm elements).mem_iff

/-- **When a section is accepted after others.** -/
theorem Loaded.accepts_iff (h : Loaded env entries loading) (hashOrder : HashOrder) :
    (∃ loading', loading.add env hashOrder e = .ok loading') ↔
      (∃ read, readSection env e.1 e.2 = .ok read) ∧ ∀ a ∈ entries, Compatible a e := by
  unfold Loading.add
  cases hread : readSection env e.1 e.2 with
  | error err => simp
  | ok read =>
    obtain ⟨isDefault, read⟩ := read
    obtain ⟨hdefault, hnames, -⟩ := readSection_ok hread
    change isDefault = e.isDefault at hdefault
    change read.modelNames = e.names.dedup at hnames
    cases isDefault with
    | true =>
      have hfree : (∀ a ∈ entries, Compatible a e) ↔ loading.defaultSection = none := by
        simp [h.no_default_iff, Compatible, ← hdefault, Entry.names_of_isDefault hdefault.symm]
      rw [hfree]
      cases loading.defaultSection <;> simp
    | false =>
      have hfree : (∀ a ∈ entries, Compatible a e) ↔
          ∀ model ∈ e.names, loading.modelRoutes.lookup model = none := by
        simp only [h.not_listed_iff, Compatible, ← hdefault, Bool.false_eq_true, and_false,
          not_false_eq_true, true_and]
        exact ⟨fun hc model hmodel a ha hlisted => hc a ha model hlisted hmodel,
          fun hc a ha model hlisted hmodel => hc model hmodel a ha hlisted⟩
      have hnodup : (hashOrder.order read.modelNames).Nodup := by
        rw [(hashOrder.perm _).nodup_iff, hnames]
        exact List.nodup_dedup _
      rw [hfree]
      dsimp only
      rw [map_accepts, addModels_accepts, hnames]
      rw [hnames] at hnodup
      simp [hnodup, HashOrder.mem_order]

theorem Loaded.sections_insert (h : Loaded env entries loading) {read : ProviderSection}
    (hnew : e.1 ∉ entries.map Prod.fst)
    (hread : readSection env e.1 e.2 = .ok (e.isDefault, read)) :
    ∀ a ∈ entries ++ [e], ∃ read', readSection env a.1 a.2 = .ok (a.isDefault, read') ∧
      (loading.sections.insert e.1 read).lookup a.1 = some read' := by
  intro a ha
  rcases List.mem_append.mp ha with ha | ha
  · have hne : a.1 ≠ e.1 := fun heq => hnew (heq ▸ List.mem_map_of_mem ha)
    rw [AList.lookup_insert_ne hne]
    exact h.sections a ha
  · rw [List.mem_singleton.mp ha]
    exact ⟨read, hread, AList.lookup_insert _⟩

/-- **What has been built after one more section.** -/
theorem Loaded.add (h : Loaded env entries loading) {loading' : Loading}
    (hnew : e.1 ∉ entries.map Prod.fst) (hadd : loading.add env hashOrder e = .ok loading') :
    Loaded env (entries ++ [e]) loading' := by
  obtain ⟨-, hcompatible⟩ := (h.accepts_iff hashOrder).mp ⟨loading', hadd⟩
  unfold Loading.add at hadd
  cases hread : readSection env e.1 e.2 with
  | error err => simp [hread] at hadd
  | ok read =>
    obtain ⟨isDefault, read⟩ := read
    obtain ⟨hdefault, hnames, -⟩ := readSection_ok hread
    change isDefault = e.isDefault at hdefault
    change read.modelNames = e.names.dedup at hnames
    have hsections := h.sections_insert hnew (hdefault ▸ hread)
    cases isDefault with
    | true =>
      simp only [hread] at hadd
      split at hadd
      · cases hadd
      · next hnone =>
        cases hadd
        have hothers := h.no_default_iff.mp hnone
        refine ⟨hsections, fun model name => ?_, fun name => ?_⟩
        · simp [h.routes, or_and_right, exists_or, Entry.names_of_isDefault hdefault.symm]
        · have hearlier : ¬ ∃ a ∈ entries, a.1 = name ∧ a.isDefault = true := by
            rintro ⟨a, ha, -, htrue⟩
            simp [hothers a ha] at htrue
          simp [or_and_right, exists_or, hearlier, ← hdefault]
    | false =>
      simp only [hread] at hadd
      obtain ⟨routes, hroutes, rfl⟩ := map_eq_ok.mp hadd
      refine ⟨hsections, fun model name => ?_, fun name => ?_⟩
      · rw [lookup_addModels hroutes, hnames]
        simp only [HashOrder.mem_order, List.mem_dedup]
        split
        · next hlisted =>
          have hearlier : ¬ ∃ a ∈ entries, a.1 = name ∧ model ∈ a.names := by
            rintro ⟨a, ha, -, hmodel⟩
            exact (hcompatible a ha).2 model hmodel hlisted
          simp [or_and_right, exists_or, hearlier, hlisted]
        · next hunlisted => simp [h.routes, or_and_right, exists_or, hunlisted]
      · simp [h.default, or_and_right, exists_or, ← hdefault]

theorem consistent_append :
    Consistent env (entries ++ [e]) ↔ Consistent env entries ∧
      (∃ read, readSection env e.1 e.2 = .ok read) ∧ ∀ a ∈ entries, Compatible a e := by
  constructor
  · rintro ⟨hreads, hcompatible⟩
    rw [List.pairwise_append] at hcompatible
    exact ⟨⟨fun a ha => hreads a (List.mem_append_left _ ha), hcompatible.1⟩,
      hreads e (by simp), fun a ha => hcompatible.2.2 a ha e (by simp)⟩
  · rintro ⟨⟨hreads, hcompatible⟩, hread, he⟩
    refine ⟨fun a ha => ?_, List.pairwise_append.mpr ⟨hcompatible, by simp, by simpa using he⟩⟩
    rcases List.mem_append.mp ha with ha | ha
    · exact hreads a ha
    · rwa [List.mem_singleton.mp ha]

theorem loads_append {loading' : Loading} :
    (entries ++ [e]).foldlM (Loading.add env hashOrder) Loading.empty = .ok loading' ↔
      ∃ loading, entries.foldlM (Loading.add env hashOrder) Loading.empty = .ok loading ∧
        loading.add env hashOrder e = .ok loading' := by
  simp [List.foldlM_append, bind_eq_ok]

/-- **What has been built after the loop.** -/
theorem Loaded.of_loads (hdistinct : (entries.map Prod.fst).Nodup)
    (h : entries.foldlM (Loading.add env hashOrder) Loading.empty = .ok loading) :
    Loaded env entries loading := by
  induction entries using List.reverseRecOn generalizing loading with
  | nil =>
    cases h
    exact Loaded.empty
  | append_singleton entries e ih =>
    obtain ⟨before, hbefore, hadd⟩ := loads_append.mp h
    rw [List.map_append, List.nodup_append] at hdistinct
    obtain ⟨hdistinct, -, hnew⟩ := hdistinct
    exact (ih hdistinct hbefore).add (fun hmem => hnew e.1 hmem e.1 (by simp) rfl) hadd

/-- **The loop goes through when the sections are consistent.** -/
theorem loads_iff (hashOrder : HashOrder) (hdistinct : (entries.map Prod.fst).Nodup) :
    (∃ loading, entries.foldlM (Loading.add env hashOrder) Loading.empty = .ok loading) ↔
      Consistent env entries := by
  induction entries using List.reverseRecOn with
  | nil => exact ⟨fun _ => ⟨by simp, by simp⟩, fun _ => ⟨Loading.empty, rfl⟩⟩
  | append_singleton entries e ih =>
    rw [List.map_append, List.nodup_append] at hdistinct
    simp only [loads_append]
    rw [consistent_append, ← ih hdistinct.1]
    constructor
    · rintro ⟨after, before, hbefore, hadd⟩
      have hloaded := Loaded.of_loads hdistinct.1 hbefore
      exact ⟨⟨before, hbefore⟩, (hloaded.accepts_iff hashOrder).mp ⟨after, hadd⟩⟩
    · rintro ⟨⟨before, hbefore⟩, hnext⟩
      have hloaded := Loaded.of_loads hdistinct.1 hbefore
      obtain ⟨after, hadd⟩ := (hloaded.accepts_iff hashOrder).mpr hnext
      exact ⟨after, before, hbefore, hadd⟩

/-- **In which order the sections come does not matter.** -/
theorem Consistent.perm {entries' : List Entry} (hperm : entries.Perm entries')
    (h : Consistent env entries) : Consistent env entries' :=
  ⟨fun a ha => h.reads a (hperm.mem_iff.mpr ha),
    (hperm.pairwise_iff Compatible.symm).mp h.compatible⟩

end

/-! ## The route of a model -/

section
variable {env : Environment} {hashOrder : HashOrder} {file : FileConfig} {config : Config}

theorem fromFileConfig_accepts :
    (∃ config, fromFileConfig env hashOrder file = .ok config) ↔
      file.providers ≠ [] ∧ (∃ settings, readSettings env file = .ok settings) ∧
        Consistent env file.providers := by
  unfold fromFileConfig
  split
  · next hnone => simp [hnone]
  · next hsome =>
    rw [← loads_iff hashOrder file.distinct]
    cases readSettings env file with
    | error e => simp [bind, Except.bind]
    | ok settings =>
      simp [bind, Except.bind, map_accepts, hsome]

/-- What a file that is accepted is read as. -/
theorem fromFileConfig_ok (h : fromFileConfig env hashOrder file = .ok config) :
    Consistent env file.providers ∧ config.defaults = file.defaultCaps ∧
      Loaded env file.providers
        { sections := config.sections, modelRoutes := config.modelRoutes
          defaultSection := config.defaultSection } := by
  have hconsistent := (fromFileConfig_accepts.mp ⟨config, h⟩).2.2
  unfold fromFileConfig at h
  split at h
  · cases h
  · obtain ⟨settings, -, h⟩ := bind_eq_ok.mp h
    obtain ⟨loading, hloading, rfl⟩ := map_eq_ok.mp h
    exact ⟨hconsistent, rfl, Loaded.of_loads file.distinct hloading⟩

theorem Consistent.eq_of_listed {entries : List Entry} (h : Consistent env entries) {a b : Entry}
    (ha : a ∈ entries) (hb : b ∈ entries) {model : String} (hmodela : model ∈ a.names)
    (hmodelb : model ∈ b.names) : a = b := by
  by_contra hne
  have hcompatible : Compatible a b := h.compatible.forall ha hb hne
  exact hcompatible.2 model hmodela hmodelb

theorem Consistent.eq_of_default {entries : List Entry} (h : Consistent env entries) {a b : Entry}
    (ha : a ∈ entries) (hb : b ∈ entries) (hdefaulta : a.isDefault = true)
    (hdefaultb : b.isDefault = true) : a = b := by
  by_contra hne
  have hcompatible : Compatible a b := h.compatible.forall ha hb hne
  exact hcompatible.1 ⟨hdefaulta, hdefaultb⟩

/-- **The section a model is sent to is there.** -/
theorem resolveRoute_section (h : fromFileConfig env hashOrder file = .ok config) {e : Entry}
    (he : e ∈ file.providers) {model : String}
    (hroute : (config.modelRoutes.lookup model).or config.defaultSection = some e.1) :
    ∃ route, config.resolveRoute model = .ok route ∧ RouteOf file e route := by
  obtain ⟨-, hdefaults, hloaded⟩ := fromFileConfig_ok h
  obtain ⟨read, hread, hlookup⟩ := hloaded.sections e he
  obtain ⟨-, -, hrouteOf⟩ := readSection_ok hread
  refine ⟨read.route file.defaultCaps, ?_, hrouteOf file⟩
  unfold Config.resolveRoute
  dsimp only at hlookup
  simp only [hroute, hlookup, hdefaults]

/-- **A model that is not refused is sent to a section of the file.** -/
theorem sent_to_section (h : fromFileConfig env hashOrder file = .ok config) {model name : String}
    (hroute : (config.modelRoutes.lookup model).or config.defaultSection = some name) :
    ∃ e ∈ file.providers, e.1 = name := by
  obtain ⟨-, -, hloaded⟩ := fromFileConfig_ok h
  rcases Option.or_eq_some_iff.mp hroute with hlisted | ⟨-, hdefault⟩
  · obtain ⟨e, he, hname, -⟩ := (hloaded.routes model name).mp hlisted
    exact ⟨e, he, hname⟩
  · obtain ⟨e, he, hname, -⟩ := (hloaded.default name).mp hdefault
    exact ⟨e, he, hname⟩

theorem routesWell (h : fromFileConfig env hashOrder file = .ok config) :
    RoutesWell file config := by
  obtain ⟨hconsistent, -, hloaded⟩ := fromFileConfig_ok h
  refine ⟨fun model e he hlisted => ⟨fun other hother hlisted' => ?_, ?_⟩,
    fun e he hdefault => ⟨fun other hother hdefault' => ?_, fun model hunlisted => ?_⟩,
    fun model hunlisted hnone => ?_, fun model name message hinternal => ?_⟩
  · exact hconsistent.eq_of_listed hother he hlisted' hlisted
  · refine resolveRoute_section h he ?_
    have hlookup : config.modelRoutes.lookup model = some e.1 :=
      (hloaded.routes model e.1).mpr ⟨e, he, rfl, hlisted⟩
    simp [hlookup]
  · exact hconsistent.eq_of_default hother he hdefault' hdefault
  · refine resolveRoute_section h he ?_
    have hlookup : config.modelRoutes.lookup model = none :=
      (hloaded.not_listed_iff model).mpr hunlisted
    have hsection : config.defaultSection = some e.1 :=
      (hloaded.default e.1).mpr ⟨e, he, rfl, hdefault⟩
    simp [hlookup, hsection]
  · have hlookup : config.modelRoutes.lookup model = none :=
      (hloaded.not_listed_iff model).mpr hunlisted
    have hsection : config.defaultSection = none := hloaded.no_default_iff.mpr hnone
    simp [Config.resolveRoute, hlookup, hsection]
  · cases hroute : (config.modelRoutes.lookup model).or config.defaultSection with
    | none => simp [Config.resolveRoute, hroute] at hinternal
    | some sectionName =>
      obtain ⟨e, he, rfl⟩ := sent_to_section h hroute
      obtain ⟨route, hok, -⟩ := resolveRoute_section h he hroute
      simp [hok] at hinternal

end

/-- The file with its sections in another order. -/
def FileConfig.reordered (file : FileConfig) {providers : List Entry}
    (hperm : file.providers.Perm providers) : FileConfig :=
  { file with
    providers
    distinct := ((hperm.map Prod.fst).nodup_iff).mp file.distinct }

/-- **Routing is well defined.** -/
theorem routing_well_defined (env : Environment) (file : FileConfig) :
    (∀ (providers : List Entry) (hperm : file.providers.Perm providers)
      (hashOrder hashOrder' : HashOrder),
      (∃ config, fromFileConfig env hashOrder file = .ok config) ↔
        ∃ config, fromFileConfig env hashOrder' (file.reordered hperm) = .ok config) ∧
    ∀ (hashOrder : HashOrder) (config : Config),
      fromFileConfig env hashOrder file = .ok config → RoutesWell file config := by
  refine ⟨fun providers hperm hashOrder hashOrder' => ?_, fun hashOrder config => routesWell⟩
  rw [fromFileConfig_accepts, fromFileConfig_accepts]
  have hempty : file.providers = [] ↔ providers = [] := by
    constructor <;> rintro heq
    · exact (heq ▸ hperm).symm.eq_nil
    · exact (heq ▸ hperm).eq_nil
  have hconsistent : Consistent env file.providers ↔ Consistent env providers :=
    ⟨Consistent.perm hperm, Consistent.perm hperm.symm⟩
  exact and_congr (not_congr hempty) (and_congr Iff.rfl hconsistent)

/-- Nothing is set outside the file. -/
def plainEnvironment : Environment where
  var _ := none
  secretFile _ := none
  headerValue _ := .ok ()
  socketAddr := .ok

def inOrder : HashOrder where
  order elements := elements
  perm _ := .refl _

def plainSection (endpoint : String) (models : ModelsField) : ProviderConfigRaw where
  endpointOpenai := some endpoint
  endpointAnthropic := none
  endpointInteractions := none
  models := models
  apiKey := none
  maxTokens := none
  maxOutputTokens := some 4096
  maxCompletionTokens := none
  dropFields := .all []
  proxy := none
  proxyLimit := none
  controlCleanAll := none
  controlExtendLifetime := none

def twoSections : FileConfig where
  listenHost := none
  listenPort := none
  upstreamTimeout := none
  maxRequestBody := none
  defaults := some { maxTokens := some 1024, maxOutputTokens := none, maxCompletionTokens := none }
  diagnostics := none
  providers :=
    [("main", plainSection "http://a/" (.single "default")),
      ("small", plainSection "http://b" (.list ["tiny", "mini"]))]
  distinct := by simp

theorem routing_well_defined_two :
    ∃ config, fromFileConfig plainEnvironment inOrder twoSections = .ok config ∧
      RoutesWell twoSections config ∧
      ∃ config', fromFileConfig plainEnvironment inOrder
        (twoSections.reordered (List.Perm.swap _ _ _)) = .ok config' := by
  have haccepted : (fromFileConfig plainEnvironment inOrder twoSections).isOk = true := by
    decide +kernel
  cases h : fromFileConfig plainEnvironment inOrder twoSections with
  | error e => simp [h, Except.isOk, Except.toBool] at haccepted
  | ok config =>
    obtain ⟨hreordered, hroutes⟩ := routing_well_defined plainEnvironment twoSections
    exact ⟨config, rfl, hroutes inOrder config h, (hreordered _ _ _ inOrder).mp ⟨config, h⟩⟩

end InfSplitter.Configuration
