import InfSplitter.Server.Dispatch
import Mathlib.Data.String.Basic

/-!
# The models on offer and the clients they are reached with

`/v1/models` lists what the sections list, sorted. A handler sends a request with the HTTP client
for the proxy of its section: `build_client_map` makes one for each proxy there is, in the order the
map yields its sections, and one for none.

So a request for a model on the list is never refused, and whatever the order, it is sent through
the proxy of the section that lists it (`listed_models_reached`).
-/

set_option autoImplicit false

namespace InfSplitter.Server

open InfSplitter.Configuration Interactions Session

/-! ## The models -/

structure ModelObject where
  modelType : String
  id : String
  displayName : String
  createdAt : String
deriving DecidableEq, Repr

structure ModelsListResponse where
  data : List ModelObject
  firstId : Option String
  lastId : Option String
  hasMore : Bool
deriving DecidableEq, Repr

def sortedModelIds (config : Config) : List String :=
  config.modelRoutes.keys.mergeSort (· ≤ ·)

def buildModelsResponse (config : Config) : ModelsListResponse :=
  let data := (sortedModelIds config).map fun id =>
    { modelType := "model", id := id, displayName := id, createdAt := "2024-01-01T00:00:00.000Z" }
  { data := data
    firstId := data.head?.map ModelObject.id
    lastId := data.getLast?.map ModelObject.id
    hasMore := false }

/-! ## The clients -/

section
variable {χ : Type} (build : Option String → Except AppError χ)

/-- One section of the loop in `build_client_map`; `build` is `build_http_client`. -/
def addClient (clients : StrMap χ) (built : ProviderSection) : Except AppError (StrMap χ) :=
  match built.proxy with
  | none => .ok clients
  | some url =>
    if (clients.lookup url).isSome then .ok clients
    else (build (some url)).map fun client => clients.insert url client

def buildClientMap (values : List ProviderSection) : Except AppError (StrMap χ) :=
  build none >>= fun client => values.foldlM (addClient build) (AList.insert "" client ∅)

/-- `none` is the panic "default client must exist". -/
def getClient (clients : StrMap χ) (proxy : Option String) : Option χ :=
  (proxy.bind clients.lookup).or (clients.lookup "")

/-- The clients that have been built for some sections. -/
structure ClientsFor (values : List ProviderSection) (clients : StrMap χ) : Prop where
  default : ∃ client, clients.lookup "" = some client
  -- an empty proxy is none
  built : ∀ url client, clients.lookup url = some client →
    build (if url = "" then none else some url) = .ok client
  proxies : ∀ built ∈ values, ∀ url ∈ built.proxy, (clients.lookup url).isSome = true

end

section
variable {χ : Type} {build : Option String → Except AppError χ} {values : List ProviderSection}
  {clients : StrMap χ} {built : ProviderSection}

theorem ClientsFor.known (h : ClientsFor build values clients)
    (hproxy : ∀ url ∈ built.proxy, (clients.lookup url).isSome = true) :
    ClientsFor build (values ++ [built]) clients where
  default := h.default
  built := h.built
  proxies b hb := by
    rcases List.mem_append.mp hb with hb | hb
    · exact h.proxies b hb
    · rw [List.mem_singleton.mp hb]
      exact hproxy

theorem ClientsFor.insert (h : ClientsFor build values clients) {url : String} {client : χ}
    (hproxy : built.proxy = some url) (hnew : (clients.lookup url).isSome = false)
    (hbuild : build (some url) = .ok client) :
    ClientsFor build (values ++ [built]) (AList.insert url client clients) := by
  have hne : url ≠ "" := by
    rintro rfl
    obtain ⟨client, hdefault⟩ := h.default
    rw [hdefault] at hnew
    cases hnew
  refine ⟨?_, ?_, ?_⟩
  · obtain ⟨client', hdefault⟩ := h.default
    exact ⟨client', (AList.lookup_insert_ne (Ne.symm hne)).trans hdefault⟩
  · intro k c hk
    rcases lookup_insert_cases hk with ⟨rfl, rfl⟩ | ⟨_, hold⟩
    · rw [if_neg hne, hbuild]
    · exact h.built k c hold
  · intro b hb k hk
    by_cases hkey : k = url
    · rw [hkey, AList.lookup_insert]
      rfl
    · rw [AList.lookup_insert_ne hkey]
      rcases List.mem_append.mp hb with hb | hb
      · exact h.proxies b hb k hk
      · rw [List.mem_singleton.mp hb, hproxy] at hk
        exact absurd (Option.some.inj hk).symm hkey

/-- One more section. -/
theorem ClientsFor.add (h : ClientsFor build values clients) {clients' : StrMap χ}
    (hadd : addClient build clients built = .ok clients') :
    ClientsFor build (values ++ [built]) clients' := by
  unfold addClient at hadd
  cases hproxy : built.proxy with
  | none =>
    rw [hproxy] at hadd
    cases hadd
    refine h.known fun url hurl => ?_
    rw [hproxy] at hurl
    cases hurl
  | some url =>
    rw [hproxy] at hadd
    cases hlookup : (clients.lookup url).isSome with
    | true =>
      simp only [hlookup, if_true] at hadd
      cases hadd
      refine h.known fun k hk => ?_
      rw [hproxy] at hk
      rwa [← Option.some.inj hk]
    | false =>
      simp only [hlookup, Bool.false_eq_true, if_false] at hadd
      obtain ⟨client, hbuild, rfl⟩ := map_eq_ok.mp hadd
      exact h.insert hproxy hlookup hbuild

theorem ClientsFor.fold (h : ClientsFor build values clients) {more : List ProviderSection}
    {clients' : StrMap χ} (hfold : more.foldlM (addClient build) clients = .ok clients') :
    ClientsFor build (values ++ more) clients' := by
  induction more generalizing values clients with
  | nil =>
    cases hfold
    rwa [List.append_nil]
  | cons built rest ih =>
    rw [List.foldlM_cons] at hfold
    obtain ⟨clients'', hadd, hrest⟩ := bind_eq_ok.mp hfold
    have hall := ih (h.add hadd) hrest
    rwa [List.append_assoc] at hall

/-- **The map has a client for every section.** -/
theorem buildClientMap_ok (h : buildClientMap build values = .ok clients) :
    ClientsFor build values clients := by
  unfold buildClientMap at h
  obtain ⟨client, hdefault, hfold⟩ := bind_eq_ok.mp h
  have first : ClientsFor build [] (AList.insert "" client ∅) := by
    refine ⟨⟨client, AList.lookup_insert _⟩, ?_, List.forall_mem_nil _⟩
    intro k c hk
    rcases lookup_insert_cases hk with ⟨rfl, rfl⟩ | ⟨_, hold⟩
    · rw [if_pos rfl, hdefault]
    · cases hold
  exact first.fold hfold

/-- **When the map is built**, whatever the order: a client can be made for every proxy. -/
theorem buildClientMap_accepts :
    (∃ clients, buildClientMap build values = .ok clients) ↔
      (∃ client, build none = .ok client) ∧ ∀ built ∈ values, ∀ url ∈ built.proxy, url ≠ "" →
        ∃ client, build (some url) = .ok client := by
  constructor
  · intro ⟨clients, h⟩
    have hclients := buildClientMap_ok h
    refine ⟨?_, fun built hbuilt url hurl hne => ?_⟩
    · obtain ⟨client, hdefault⟩ := hclients.default
      exact ⟨client, hclients.built "" client hdefault⟩
    · obtain ⟨client, hclient⟩ :=
        Option.isSome_iff_exists.mp (hclients.proxies built hbuilt url hurl)
      have hbuild := hclients.built url client hclient
      rw [if_neg hne] at hbuild
      exact ⟨client, hbuild⟩
  · intro ⟨⟨client, hdefault⟩, hproxies⟩
    have fold (more : List ProviderSection) (clients : StrMap χ)
        (hempty : (clients.lookup "").isSome = true) (hmore : ∀ built ∈ more, built ∈ values) :
        ∃ clients', more.foldlM (addClient build) clients = .ok clients' := by
      induction more generalizing clients with
      | nil => exact ⟨clients, rfl⟩
      | cons built rest ih =>
        obtain ⟨hbuilt, hrest⟩ := List.forall_mem_cons.mp hmore
        obtain ⟨clients', hadd, hkept⟩ : ∃ clients', addClient build clients built = .ok clients' ∧
            (clients'.lookup "").isSome = true := by
          unfold addClient
          cases hproxy : built.proxy with
          | none => exact ⟨clients, rfl, hempty⟩
          | some url =>
            cases hlookup : (clients.lookup url).isSome with
            | true => exact ⟨clients, by simp [hlookup], hempty⟩
            | false =>
              have hne : url ≠ "" := by
                rintro rfl
                rw [hempty] at hlookup
                cases hlookup
              obtain ⟨client, hclient⟩ := hproxies built hbuilt url hproxy hne
              refine ⟨clients.insert url client, by simp [hlookup, hclient, Except.map], ?_⟩
              rwa [AList.lookup_insert_ne (Ne.symm hne)]
        obtain ⟨clients'', hfold⟩ := ih clients' hkept hrest
        exact ⟨clients'', by rw [List.foldlM_cons, hadd]; exact hfold⟩
    have hempty : ((AList.insert "" client ∅ : StrMap χ).lookup "").isSome = true := by
      rw [AList.lookup_insert]
      rfl
    obtain ⟨clients, hfold⟩ := fold values (AList.insert "" client ∅) hempty fun _ h => h
    exact ⟨clients, by unfold buildClientMap; rw [hdefault]; exact hfold⟩

/-- It is the one that was built with the proxy of the section. -/
theorem ClientsFor.getClient (h : ClientsFor build values clients) (hbuilt : built ∈ values) :
    ∃ client, getClient clients built.proxy = some client ∧
      build (built.proxy.filter (· ≠ "")) = .ok client := by
  unfold Server.getClient
  cases hproxy : built.proxy with
  | none =>
    obtain ⟨client, hdefault⟩ := h.default
    exact ⟨client, by rw [Option.bind_none, Option.none_or, hdefault], h.built "" client hdefault⟩
  | some url =>
    obtain ⟨client, hclient⟩ := Option.isSome_iff_exists.mp (h.proxies built hbuilt url hproxy)
    refine ⟨client, by rw [Option.bind_some, hclient, Option.some_or], ?_⟩
    rw [← h.built url client hclient]
    by_cases hempty : url = "" <;> simp [Option.filter, hempty]

end

/-! ## From the list to the client -/

section
variable {env : Environment} {hashOrder : HashOrder} {file : FileConfig} {config : Config}

theorem readSection_proxy {name : String} {raw : ProviderConfigRaw} {isDefault : Bool}
    {built : ProviderSection} (h : readSection env name raw = .ok (isDefault, built)) :
    built.proxy = raw.proxy := by
  unfold readSection at h
  dsimp only at h
  split at h
  · cases h
  · obtain ⟨proxyLimit, _, h⟩ := bind_eq_ok.mp h
    obtain ⟨apiKey, _, h⟩ := bind_eq_ok.mp h
    obtain ⟨⟨isDefault', modelNames⟩, _, h⟩ := bind_eq_ok.mp h
    dsimp only at h
    split at h
    · obtain ⟨_, _, h⟩ := bind_eq_ok.mp h
      cases h
      rfl
    · cases h
      rfl

theorem ids_buildModelsResponse (config : Config) :
    (buildModelsResponse config).data.map ModelObject.id = sortedModelIds config := by
  unfold buildModelsResponse
  rw [List.map_map]
  exact List.map_id _

/-- The list is sorted, and nothing is on it twice. -/
theorem sortedModelIds_sorted (config : Config) : (sortedModelIds config).Pairwise (· < ·) := by
  have perm : (sortedModelIds config).Perm config.modelRoutes.keys :=
    List.mergeSort_perm config.modelRoutes.keys _
  have nodup : (sortedModelIds config).Nodup :=
    perm.nodup_iff.mpr config.modelRoutes.keys_nodup
  have sorted : (sortedModelIds config).Pairwise (· ≤ ·) := by
    have hle := @List.pairwise_mergeSort _ (fun a b : String => decide (a ≤ b))
      (fun a b c hab hbc => by simpa using le_trans (by simpa using hab) (by simpa using hbc))
      (fun a b => by simpa using le_total a b) config.modelRoutes.keys
    exact hle.imp fun hab => by simpa using hab
  exact sorted.imp₂ (fun a b hle hne => lt_of_le_of_ne hle hne) nodup

/-- On it is what the sections list. -/
theorem mem_sortedModelIds (h : fromFileConfig env hashOrder file = .ok config) {model : String} :
    model ∈ sortedModelIds config ↔ ∃ e ∈ file.providers, model ∈ Entry.names e := by
  obtain ⟨-, -, loaded⟩ := fromFileConfig_ok h
  unfold sortedModelIds
  rw [List.mem_mergeSort, ← AList.mem_keys, ← AList.lookup_isSome, Option.isSome_iff_exists]
  constructor
  · intro ⟨name, hname⟩
    obtain ⟨e, he, _, hlisted⟩ := (loaded.routes model name).mp hname
    exact ⟨e, he, hlisted⟩
  · intro ⟨e, he, hlisted⟩
    exact ⟨e.1, (loaded.routes model e.1).mpr ⟨e, he, rfl, hlisted⟩⟩

/-- **A model on the list is never refused**, and a request for it goes through the proxy of the
section that lists it. -/
theorem listed_models_reached {χ : Type} {build : Option String → Except AppError χ}
    (h : fromFileConfig env hashOrder file = .ok config) {values : List ProviderSection}
    (order : values.Perm config.sections.values) {clients : StrMap χ}
    (hclients : buildClientMap build values = .ok clients) (serde : Serde) :
    ((buildModelsResponse config).data.map ModelObject.id).Pairwise (· < ·) ∧
      (∀ model, model ∈ (buildModelsResponse config).data.map ModelObject.id ↔
        ∃ e ∈ file.providers, model ∈ Entry.names e) ∧
      ∀ handle request model, Names serde request model →
        model ∈ (buildModelsResponse config).data.map ModelObject.id →
        ∃ handed e client,
          dispatchMessages serde config handle request = (.ok handed, handle) ∧
          e ∈ file.providers ∧ model ∈ Entry.names e ∧ handed.route.sectionName = e.1 ∧
          getClient clients handed.route.proxy = some client ∧
          build (e.2.proxy.filter (· ≠ "")) = .ok client := by
  rw [ids_buildModelsResponse]
  refine ⟨sortedModelIds_sorted config, fun model => mem_sortedModelIds h, ?_⟩
  intro handle request model ⟨text, htext, hpeek, hblank⟩ hmem
  obtain ⟨other, hother, hlisted⟩ := (mem_sortedModelIds h).mp hmem
  rcases resolveRoute_cases h model with ⟨e, built, own, hread, hlookup, hresolve⟩ | ⟨none, _⟩
  · have hmodel : model ∈ Entry.names e := own.2.resolve_right fun hdefault =>
      hdefault.2 other hother hlisted
    obtain ⟨_, _, hroute⟩ := readSection_ok hread
    obtain ⟨upstream, endpoint, _, hhanded⟩ :=
      @handOver_ok request.ingress _ (hroute file).endpoint
    have hbuilt : built ∈ values := order.symm.subset (StrMap.mem_values.mpr ⟨e.1, hlookup⟩)
    obtain ⟨client, hclient, hbuild⟩ := (buildClientMap_ok hclients).getClient hbuilt
    refine ⟨⟨upstream, built.route file.defaultCaps, endpoint⟩, e, client, ?_, own.1, hmodel,
      (hroute file).sectionName, hclient, ?_⟩
    · unfold dispatchMessages
      simp only [htext, hpeek, if_neg hblank, hresolve, hhanded]
    · rw [← readSection_proxy hread]
      exact hbuild
  · exact absurd ⟨hother, Or.inl hlisted⟩ (none other)

end

/-- Every client can be built, and is its proxy. -/
def anyClient (proxy : Option String) : Except AppError (Option String) := .ok proxy

/-- The second of the sections has a proxy. -/
def proxied : FileConfig :=
  { twoSections with
    providers :=
      [("main", plainSection "http://a/" (.single "default")),
        ("small", { plainSection "http://b" (.list ["tiny", "mini"]) with
          proxy := some "http://proxy" })]
    distinct := by simp }

def tinyRequest : Request :=
  { ingress := .openAi, headers := [], body := tinyBody.toVec, statsTs := "", dumpTs := "" }

theorem listed_models_reached_tiny :
    ∃ config, fromFileConfig plainEnvironment inOrder proxied = .ok config ∧
      ∃ clients, buildClientMap anyClient config.sections.values = .ok clients ∧
        ∃ handed, dispatchMessages plainSerde config firstHandle tinyRequest =
            (.ok handed, firstHandle) ∧
          getClient clients handed.route.proxy = some (some "http://proxy") := by
  obtain ⟨config, hconfig⟩ : ∃ config,
      fromFileConfig plainEnvironment inOrder proxied = .ok config :=
    exists_of_isOk (by decide +kernel)
  obtain ⟨clients, hclients⟩ : ∃ clients,
      buildClientMap anyClient config.sections.values = .ok clients :=
    buildClientMap_accepts.mpr ⟨⟨_, rfl⟩, fun _ _ _ _ _ => ⟨_, rfl⟩⟩
  obtain ⟨-, hlisted, hreached⟩ :=
    listed_models_reached hconfig (List.Perm.refl _) hclients plainSerde
  have hsmall : ∀ e ∈ proxied.providers, "tiny" ∈ Entry.names e →
      e.2.proxy = some "http://proxy" := by
    refine List.forall_mem_cons.mpr ⟨fun h => absurd h (by decide), ?_⟩
    exact List.forall_mem_singleton.mpr fun _ => rfl
  have hmem := (hlisted "tiny").mpr
    ⟨_, List.mem_cons_of_mem _ List.mem_cons_self, by decide⟩
  obtain ⟨handed, e, client, hdispatch, he, hnames, -, hclient, hbuild⟩ :=
    hreached firstHandle tinyRequest "tiny" (names_tiny rfl) hmem
  rw [hsmall e he hnames] at hbuild
  obtain rfl : some "http://proxy" = client := Except.ok.inj hbuild
  exact ⟨config, hconfig, clients, hclients, handed, hdispatch, hclient⟩

end InfSplitter.Server
