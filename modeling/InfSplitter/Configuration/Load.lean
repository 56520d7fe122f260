import InfSplitter.Egress.Passthrough
import InfSplitter.Lib.FileNames
import InfSplitter.Session.Model
import InfSplitter.Streams.Sse

/-!
# Reading the configuration

`from_file_config` takes a parsed file to a `Config`: it reads the durations and sizes, and then
goes through the provider sections, which are a hash map, and builds three things at once. These are
the sections by their names, the section of every model that is listed, and the one section for all
other models. `resolve_route` looks into all three.

The hash map of the file is the list of its entries in the order they are walked through. A hash set
is a list without duplicates, and where the code walks through one, the order is a parameter
(`HashOrder`). What is read from outside is an `Environment`.
-/

set_option autoImplicit false

namespace InfSplitter.Configuration

open Egress Lib Session

inductive ConfigError
  | provider (name message : String)
  | duplicateModel (model first second : String)
  | multipleDefaults (first second : String)
  | unknownDropModel (sectionName model : String)
  | unroutableModel (model : String)
  | secretNotFound (name : String)
  | noProviders
  | port (message : String)
  | invalidDuration (value message : String)
  | invalidByteSize (value message : String)
  | invalidApiKey (sectionName message : String)
  | io (message : String)
deriving DecidableEq, Repr

/-- What is not in the file. -/
structure Environment where
  /-- `env::var(..).ok()` -/
  var : String → Option String
  /-- the file under `secrets`, if there is one, and what reading it gives -/
  secretFile : String → Option (Except String String)
  /-- `HeaderValue::from_str` -/
  headerValue : String → Except String Unit
  /-- `parse::<SocketAddr>()`, the address by its text -/
  socketAddr : String → Except String String

/-- The order in which the elements of a hash set are met. -/
structure HashOrder where
  order : List String → List String
  perm : ∀ elements, (order elements).Perm elements

/-! ## Durations, sizes and secrets -/

def trimText (text : String) : String := String.ofList (Streams.trim text.toList)

/-- `parse::<u64>()`. -/
def parseU64 (text : List Char) : Option Nat := parseUnsigned 64 text

def stripSuffix (ending text : List Char) : Option (List Char) :=
  if ending <:+ text then some (text.take (text.length - ending.length)) else none

/-- An integer in front of a one-letter unit. -/
def unitCount (unit : String) (count : List Char) : Except String Nat :=
  if count = [] then .error ("expected integer before '" ++ unit ++ "'")
  else
    match parseU64 count with
    | none => .error ("expected integer before '" ++ unit ++ "'")
    | some n => .ok n

/-- `checked_mul`. -/
def checkedMul (n multiplier : Nat) (message : String) : Except String Nat :=
  if n * multiplier < 18446744073709551616 then .ok (n * multiplier) else .error message

/-- The number of seconds. -/
def parseDuration (raw : String) : Except String Nat :=
  let text := Streams.trim raw.toList
  if text = [] then .error "must not be empty"
  else
    match stripSuffix ['s'] text, stripSuffix ['m'] text with
    | some secs, _ => unitCount "s" secs
    | none, some mins => unitCount "m" mins >>= fun n => checkedMul n 60 "duration overflow"
    | none, none => .error "expected suffix 's' or 'm' (e.g. 15s, 1m)"

def parseByteSize (raw : String) : Except String Nat :=
  let text := Streams.trim raw.toList
  if text = [] then .error "must not be empty"
  else
    match [('k', 1024), ('m', 1048576), ('g', 1073741824)].findSome? fun unit =>
        (stripSuffix [unit.1] text).map fun count => (String.singleton unit.1, count, unit.2) with
    | some (unit, count, multiplier) =>
      unitCount unit count >>= fun n => checkedMul n multiplier "size overflow"
    | none => .error "expected suffix 'k', 'm', or 'g' (e.g. 512k, 2m, 1g)"

def parseDurationField (raw : String) : Except ConfigError Nat :=
  (parseDuration raw).mapError (.invalidDuration raw)

def parseByteSizeField (raw : String) : Except ConfigError Nat :=
  (parseByteSize raw).mapError (.invalidByteSize raw)

def resolveVar (env : Environment) (name : String) : Except ConfigError String :=
  match (env.var name).map trimText with
  | some value => if value ≠ "" then .ok value else fromFile
  | none => fromFile
where
  fromFile : Except ConfigError String :=
    match env.secretFile name with
    | some (.error message) => .error (.io message)
    | some (.ok content) =>
      if trimText content = "" then .error (.secretNotFound name) else .ok (trimText content)
    | none => .error (.secretNotFound name)

def resolveSecret (env : Environment) (value : String) : Except ConfigError String :=
  match (Streams.stripPrefix ['$', '\x7b'] value.toList).bind (stripSuffix ['\x7d']) with
  | some var => resolveVar env (String.ofList var)
  | none => .ok value

def resolveListenAddr (env : Environment) (listen : Option String) (port : Option UInt16) :
    Except ConfigError String :=
  let host := (listen.or (env.var "INF_SPLITTER_LISTEN_HOST")).getD "127.0.0.1"
  let address := host ++ ":" ++ toString (port.getD 3000).toNat
  (env.socketAddr address).mapError fun err => .port (address ++ ": " ++ err)

/-! ## The file -/

inductive ModelsField
  | single (value : String)
  | list (values : List String)
deriving DecidableEq, Repr

structure ProviderConfigRaw where
  endpointOpenai : Option String
  endpointAnthropic : Option String
  endpointInteractions : Option String
  models : ModelsField
  apiKey : Option String
  maxTokens : Option UInt32
  maxOutputTokens : Option UInt32
  maxCompletionTokens : Option UInt32
  dropFields : DropFields
  proxy : Option String
  proxyLimit : Option String
  controlCleanAll : Option String
  controlExtendLifetime : Option String
deriving DecidableEq, Repr

/-- The fields that can be refused. The sinks, modes and the compression are taken as they are. -/
structure DiagnosticsConfigRaw where
  flushPeriod : Option String
  maxFileSize : Option String
  maxRotatedSize : Option String
deriving DecidableEq, Repr

structure DefaultConfig where
  maxTokens : Option UInt32
  maxOutputTokens : Option UInt32
  maxCompletionTokens : Option UInt32
deriving DecidableEq, Repr

structure FileConfig where
  listenHost : Option String
  listenPort : Option UInt16
  upstreamTimeout : Option String
  maxRequestBody : Option String
  defaults : Option DefaultConfig
  diagnostics : Option DiagnosticsConfigRaw
  providers : List (String × ProviderConfigRaw)
  distinct : (providers.map Prod.fst).Nodup

/-! ## One section -/

structure ProviderSection where
  name : String
  endpointOpenai : Option String
  endpointAnthropic : Option String
  endpointInteractions : Option String
  apiKey : Option String
  maxTokens : Option UInt32
  maxOutputTokens : Option UInt32
  maxCompletionTokens : Option UInt32
  modelNames : List String
  dropFields : DropFields
  proxy : Option String
  proxyLimit : Option Nat
  controlCleanAll : Option String
  controlExtendLifetime : Option String
deriving DecidableEq, Repr

def trimEndSlashes (text : List Char) : List Char :=
  (text.reverse.dropWhile (· = '/')).reverse

def readEndpoint (endpoint : Option String) : Option String :=
  (endpoint.map fun e => String.ofList (trimEndSlashes (Streams.trim e.toList))).filter (· ≠ "")

/-- A value that may be absent. -/
def readOptional {α β : Type} (read : α → Except ConfigError β) (value : Option α) :
    Except ConfigError (Option β) :=
  match value with
  | some value => (read value).map some
  | none => .ok none

def readApiKey (env : Environment) (name value : String) : Except ConfigError String :=
  resolveSecret env value >>= fun resolved =>
    if resolved = "" then .error (.invalidApiKey name "api_key must not be empty")
    else
      match env.headerValue resolved with
      | .error e =>
        .error (.invalidApiKey name ("api_key contains invalid HTTP header bytes: " ++ e))
      | .ok () => .ok resolved

/-- Whether the section is the default one, and the models it lists. -/
def parseModels (name : String) (models : ModelsField) : Except ConfigError (Bool × List String) :=
  match models with
  | .single value =>
    if value = "default" then .ok (true, [])
    else if trimText value = "" then .error (.provider name "models must not be empty")
    else .ok (false, [value])
  | .list values =>
    if values = [] then .error (.provider name "models list must not be empty")
    else if "default" ∈ values then
      .error (.provider name "use models = \"default\" instead of listing default in an array")
    else if ∃ model ∈ values, trimText model = "" then
      .error (.provider name "model name must not be empty")
    else .ok (false, values.dedup)

/-- The fields that are dropped for one model are for a model of the section. -/
def checkDropFields (name : String) (modelNames : List String) :
    DropFields → Except ConfigError Unit
  | .all _ => .ok ()
  | .perModel _ byModel =>
    match byModel.find? fun entry => entry.1 ∉ modelNames with
    | some entry => .error (.unknownDropModel name entry.1)
    | none => .ok ()

/-- What the loop makes of an entry before it looks at the other sections. -/
def readSection (env : Environment) (name : String) (raw : ProviderConfigRaw) :
    Except ConfigError (Bool × ProviderSection) := do
  let endpointOpenai := readEndpoint raw.endpointOpenai
  let endpointAnthropic := readEndpoint raw.endpointAnthropic
  let endpointInteractions := readEndpoint raw.endpointInteractions
  if endpointOpenai = none ∧ endpointAnthropic = none ∧ endpointInteractions = none then
    throw (.provider name ("at least one of endpoint_openai, endpoint_anthropic, " ++
      "or endpoint_interactions must be set"))
  let proxyLimit ← readOptional parseByteSizeField raw.proxyLimit
  let apiKey ← readOptional (readApiKey env name) raw.apiKey
  let (isDefault, modelNames) ← parseModels name raw.models
  if isDefault = false then
    checkDropFields name modelNames raw.dropFields
  return (isDefault,
    { name, endpointOpenai, endpointAnthropic, endpointInteractions, apiKey
      maxTokens := raw.maxTokens
      maxOutputTokens := raw.maxOutputTokens
      maxCompletionTokens := raw.maxCompletionTokens
      modelNames
      dropFields := raw.dropFields
      proxy := raw.proxy
      proxyLimit
      controlCleanAll := raw.controlCleanAll
      controlExtendLifetime := raw.controlExtendLifetime })

/-! ## All sections -/

/-- The variables of the loop. -/
structure Loading where
  sections : StrMap ProviderSection
  modelRoutes : StrMap String
  defaultSection : Option String

def Loading.empty : Loading := { sections := ∅, modelRoutes := ∅, defaultSection := none }

def addModels (name : String) : List String → StrMap String → Except ConfigError (StrMap String)
  | [], routes => .ok routes
  | model :: rest, routes =>
    match routes.lookup model with
    | some existing => .error (.duplicateModel model existing name)
    | none => addModels name rest (routes.insert model name)

def Loading.add (env : Environment) (hashOrder : HashOrder) (loading : Loading)
    (entry : String × ProviderConfigRaw) : Except ConfigError Loading :=
  match readSection env entry.1 entry.2 with
  | .error e => .error e
  | .ok (true, built) =>
    match loading.defaultSection with
    | some existing => .error (.multipleDefaults existing entry.1)
    | none => .ok
      { loading with
        defaultSection := some entry.1
        sections := loading.sections.insert entry.1 built }
  | .ok (false, built) =>
    (addModels entry.1 (hashOrder.order built.modelNames) loading.modelRoutes).map fun routes =>
      { loading with modelRoutes := routes, sections := loading.sections.insert entry.1 built }

structure DiagnosticsConfig where
  flushPeriod : Option Nat
  maxFileSize : Option Nat
  maxRotatedSize : Option Nat
deriving DecidableEq, Repr

structure Config where
  listenAddr : String
  upstreamTimeout : Nat
  maxRequestBody : Nat
  diagnostics : DiagnosticsConfig
  defaults : DefaultConfig
  sections : StrMap ProviderSection
  modelRoutes : StrMap String
  defaultSection : Option String

def readDiagnostics : Option DiagnosticsConfigRaw → Except ConfigError DiagnosticsConfig
  | none => .ok { flushPeriod := none, maxFileSize := none, maxRotatedSize := none }
  | some raw => do
    let flushPeriod ← readOptional parseDurationField raw.flushPeriod
    let maxFileSize ← readOptional parseByteSizeField raw.maxFileSize
    let maxRotatedSize ← readOptional parseByteSizeField raw.maxRotatedSize
    return { flushPeriod, maxFileSize, maxRotatedSize }

/-- Everything that does not come from a section. -/
structure Settings where
  listenAddr : String
  diagnostics : DiagnosticsConfig
  upstreamTimeout : Nat
  maxRequestBody : Nat

def readSettings (env : Environment) (file : FileConfig) : Except ConfigError Settings := do
  let listenAddr ← resolveListenAddr env file.listenHost file.listenPort
  let diagnostics ← readDiagnostics file.diagnostics
  let upstreamTimeout ← parseDurationField (file.upstreamTimeout.getD "5m")
  let maxRequestBody ← parseByteSizeField (file.maxRequestBody.getD "2m")
  return { listenAddr, diagnostics, upstreamTimeout, maxRequestBody }

def FileConfig.defaultCaps (file : FileConfig) : DefaultConfig :=
  file.defaults.getD { maxTokens := none, maxOutputTokens := none, maxCompletionTokens := none }

def fromFileConfig (env : Environment) (hashOrder : HashOrder) (file : FileConfig) :
    Except ConfigError Config :=
  if file.providers = [] then .error .noProviders
  else
    readSettings env file >>= fun settings =>
      (file.providers.foldlM (Loading.add env hashOrder) Loading.empty).map fun loading =>
        { listenAddr := settings.listenAddr
          upstreamTimeout := settings.upstreamTimeout
          maxRequestBody := settings.maxRequestBody
          diagnostics := settings.diagnostics
          defaults := file.defaultCaps
          sections := loading.sections
          modelRoutes := loading.modelRoutes
          defaultSection := loading.defaultSection }

/-! ## The route of a model -/

structure RouteTarget where
  sectionName : String
  endpointOpenai : Option String
  endpointAnthropic : Option String
  endpointInteractions : Option String
  apiKey : Option String
  maxTokens : Option UInt32
  maxOutputTokens : Option UInt32
  maxCompletionTokens : Option UInt32
  modelNames : List String
  dropFields : DropFields
  proxy : Option String
  proxyLimit : Option Nat
  controlCleanAll : Option String
  controlExtendLifetime : Option String
deriving DecidableEq, Repr

/-- The route a section stands for. -/
def ProviderSection.route (read : ProviderSection) (defaults : DefaultConfig) : RouteTarget :=
  { sectionName := read.name
    endpointOpenai := read.endpointOpenai
    endpointAnthropic := read.endpointAnthropic
    endpointInteractions := read.endpointInteractions
    apiKey := read.apiKey
    maxTokens := read.maxTokens.or defaults.maxTokens
    maxOutputTokens := read.maxOutputTokens.or defaults.maxOutputTokens
    maxCompletionTokens := read.maxCompletionTokens.or defaults.maxCompletionTokens
    modelNames := read.modelNames
    dropFields := read.dropFields
    proxy := read.proxy
    proxyLimit := read.proxyLimit
    controlCleanAll := read.controlCleanAll
    controlExtendLifetime := read.controlExtendLifetime }

def Config.resolveRoute (config : Config) (model : String) : Except ConfigError RouteTarget :=
  match (config.modelRoutes.lookup model).or config.defaultSection with
  | none => .error (.unroutableModel model)
  | some sectionName =>
    match config.sections.lookup sectionName with
    | none =>
      .error (.provider sectionName "internal: section referenced by route does not exist")
    | some built => .ok (built.route config.defaults)

end InfSplitter.Configuration
