-- SUMMARY: The configuration of the transports: what their variables must say, and what a connected transport has been checked for.
import ApmeWebMash.DataPlane.Http
import ApmeWebMash.DataPlane.StatusProtocol
import ApmeWebMash.DataPlane.Tcp

/-! # Configuration of the transports

Each avenue has a variable that asks for it. If it is set, the rest of its
configuration is required, and connecting checks what the other side offers. A
transport carries the outcome of these checks, so there is none that has not
passed them. -/

/-! ## Success -/

namespace Except

variable {ε ε' α β : Type}

/-- A sequence succeeds if its parts do. -/
theorem bind_eq_ok {x : Except ε α} {f : α → Except ε β} {b : β} :
    x >>= f = .ok b ↔ ∃ a, x = .ok a ∧ f a = .ok b := by
  cases x with
  | error e => exact iff_of_false (fun h => by cases h) fun ⟨a, h, _⟩ => by cases h
  | ok a => exact ⟨fun h => ⟨a, rfl, h⟩, fun ⟨a', h, h'⟩ => by cases h; exact h'⟩

theorem map_eq_ok {x : Except ε α} {f : α → β} {b : β} : x.map f = .ok b ↔ ∃ a, x = .ok a ∧ f a = b := by
  cases x <;> simp [Except.map]

theorem mapError_eq_ok {x : Except ε α} {f : ε → ε'} {a : α} : x.mapError f = .ok a ↔ x = .ok a := by
  cases x <;> simp [Except.mapError]

end Except

namespace DataPlane

/-- `optional_env`. -/
def optionalEnv (environment : Environment) (name : Str) : Option Str :=
  ((envVar environment name).map Str.trim).filter (· ≠ [])

/-! ## HTTP -/

namespace Http

def baseVariable : Str := "APME_API_HTTP_BASE"

/-- `Transport::from_env`. -/
def fromEnv (crate : UrlCrate) (environment : Environment) : Except Error (Option Transport) :=
  match optionalEnv environment baseVariable with
  | none => .ok none
  | some base => (tryNew crate base).map some

end Http

/-! ## TCP -/

namespace Tcp

def addressVariable : Str := "APME_API_TCP_ADDRESS"

structure Config where
  address : Str
  serverName : Str
  caPath : Str
  clientCertificatePath : Str
  clientKeyPath : Str
deriving DecidableEq

/-- `required_env`. -/
def requiredEnv (environment : Environment) (name : Str) : Except Error Str :=
  match optionalEnv environment name with
  | some value => .ok value
  | none => .error (.invalidData "required mTLS configuration is missing")

/-- `Config::from_env`. -/
def Config.fromEnv (environment : Environment) : Except Error (Option Config) :=
  match optionalEnv environment addressVariable with
  | none => .ok none
  | some address => do
    let serverName ← requiredEnv environment "APME_API_TCP_SERVER_NAME"
    let caPath ← requiredEnv environment "APME_API_TCP_CA_FILE"
    let clientCertificatePath ← requiredEnv environment "APME_API_TCP_CLIENT_CERT_FILE"
    let clientKeyPath ← requiredEnv environment "APME_API_TCP_CLIENT_KEY_FILE"
    .ok (some ⟨address, serverName, caPath, clientCertificatePath, clientKeyPath⟩)

/-- A certificate or a key, in DER. -/
abbrev Der := List UInt8

/-- What connecting asks of the file system, of `rustls` and of the network. A
    connection and a handshake may also time out. `rustls` has a crypto provider
    if one is installed in the process, or if exactly one is compiled in. -/
structure Tls where
  read : Str → Option (List UInt8)
  certs : List UInt8 → Option (List Der)
  isRoot : Der → Bool
  privateKey : List UInt8 → Option (Option Der)
  hasProvider : Bool
  takesClientAuth : List Der → Der → Bool
  connect : Str → Option Bool
  setsNodelay : Bool
  isServerName : Str → Bool
  handshake : List Der → List Der → Der → Str → Option Bool

/-- What a handshake was made with. It is mutual: the server is held against a
    root, and the client shows a certificate. -/
structure Session (tls : Tls) where
  roots : List Der
  certificates : List Der
  key : Der
  serverName : Str
  roots_ne_nil : roots ≠ []
  are_roots : ∀ root ∈ roots, tls.isRoot root
  certificates_ne_nil : certificates ≠ []
  has_provider : tls.hasProvider
  takes_client_auth : tls.takesClientAuth certificates key
  is_server_name : tls.isServerName serverName
  handshaken : tls.handshake roots certificates key serverName = some true

/-- How connecting ends without a session. -/
inductive Failure where
  | error (error : Error)
  | panicked
deriving DecidableEq

/-- What an operation of the operating system yields. -/
def io {α : Type} (outcome : Option α) : Except Failure α :=
  match outcome with
  | some a => .ok a
  | none => .error (.error .transport)

/-- `timeout(...)`, of an operation that may fail. -/
def inTime (outcome : Option Bool) (message : Str) :
    Except Failure (PLift (outcome = some true)) :=
  match outcome with
  | none => .error (.error (.timedOut message))
  | some false => .error (.error .transport)
  | some true => .ok ⟨rfl⟩

/-- A check with its error. -/
def ensure (p : Prop) [Decidable p] (error : Error) : Except Failure (PLift p) :=
  if h : p then .ok ⟨h⟩ else .error (.error error)

/-- `ClientConfig::builder`, which panics without a provider. -/
def builder (tls : Tls) : Except Failure (PLift tls.hasProvider) :=
  if h : tls.hasProvider then .ok ⟨h⟩ else .error .panicked

/-- `Channel::connect`. -/
def connect (tls : Tls) (config : Config) : Except Failure (Session tls) := do
  let caBytes ← io (tls.read config.caPath)
  let certificateBytes ← io (tls.read config.clientCertificatePath)
  let keyBytes ← io (tls.read config.clientKeyPath)
  let authorities ← io (tls.certs caBytes)
  let hauthorities ← ensure (authorities ≠ []) (.invalidData "mTLS CA bundle is empty")
  let hroots ← ensure (∀ authority ∈ authorities, tls.isRoot authority) (.invalidData "invalid mTLS CA")
  let certificates ← io (tls.certs certificateBytes)
  let hcertificates ← ensure (certificates ≠ []) (.invalidData "mTLS client certificate is empty")
  match ← io (tls.privateKey keyBytes) with
  | none => .error (.error (.invalidData "mTLS client key is missing"))
  | some privateKey =>
    let hprovider ← builder tls
    let hauth ← ensure (tls.takesClientAuth certificates privateKey) .other
    let _ ← inTime (tls.connect config.address) "mTLS connect timed out"
    let _ ← ensure tls.setsNodelay .transport
    let hname ← ensure (tls.isServerName config.serverName) (.invalidData "invalid mTLS server name")
    let hhandshake ← inTime (tls.handshake authorities certificates privateKey config.serverName)
      "mTLS handshake timed out"
    .ok ⟨authorities, certificates, privateKey, config.serverName, hauthorities.down, hroots.down,
      hcertificates.down, hprovider.down, hauth.down, hname.down, hhandshake.down⟩

/-- The session is that of a configuration: with its server, and with what its
    files hold. -/
structure Session.Uses {tls : Tls} (session : Session tls) (config : Config) : Prop where
  connected : tls.connect config.address = some true
  server_name : session.serverName = config.serverName
  roots : ∃ bytes, tls.read config.caPath = some bytes ∧ tls.certs bytes = some session.roots
  certificates : ∃ bytes, tls.read config.clientCertificatePath = some bytes ∧
    tls.certs bytes = some session.certificates
  key : ∃ bytes, tls.read config.clientKeyPath = some bytes ∧
    tls.privateKey bytes = some (some session.key)

theorem io_eq_ok {α : Type} {outcome : Option α} {a : α} : io outcome = .ok a ↔ outcome = some a := by
  cases outcome <;> simp [io]

theorem uses_of_connect {tls : Tls} {config : Config} {session : Session tls}
    (h : connect tls config = .ok session) : session.Uses config := by
  simp only [connect, Except.bind_eq_ok, io_eq_ok] at h
  obtain ⟨caBytes, hca, certificateBytes, hcertificate, keyBytes, hkey, authorities, hauthorities,
    _, _, _, _, certificates, hcertificates, _, _, privateKey, hprivate, h⟩ := h
  cases privateKey with
  | none => cases h
  | some privateKey =>
    simp only [Except.bind_eq_ok] at h
    obtain ⟨_, _, _, _, hconnect, _, _, _, _, _, _, _, h⟩ := h
    obtain rfl := Except.ok.inj h
    exact {
      connected := hconnect.down
      server_name := rfl
      roots := ⟨caBytes, hca, hauthorities⟩
      certificates := ⟨certificateBytes, hcertificate, hcertificates⟩
      key := ⟨keyBytes, hkey, hprivate⟩ }

end Tcp

/-! ## JetStream -/

namespace Nats

def urlVariable : Str := "APME_NATS_URL"

structure Config where
  url : Str
  credentialsPath : Str
  requestStream : Str
  responseStream : Str
deriving DecidableEq

/-- The errors of the configuration: its own, and those of the broker's client. -/
inductive ConfigError where
  | invalidData (message : Str)
  | broker
deriving DecidableEq

/-- `safe_topology_name`. Only ASCII characters are made of ASCII bytes. -/
def safeTopologyName (value : Str) : Bool :=
  value ≠ [] && Str.len value ≤ 128 && value.all fun c => c.isAlphanum || c = '_' || c = '-'

/-- `required_env`. -/
def requiredEnv (environment : Environment) (name : Str) : Except ConfigError Str :=
  match optionalEnv environment name with
  | some value => .ok value
  | none => .error (.invalidData "required JetStream configuration is missing")

/-- `Config::validate`. -/
def Config.validate (config : Config) : Except ConfigError Unit :=
  match Str.stripPrefix config.url "tls://" with
  | none => .error (.invalidData "NATS URL must use tls://")
  | some rest =>
    let authority := Str.beforeFirst '/' rest
    if authority = [] ∨ '@' ∈ authority then
      .error (.invalidData "NATS URL credentials are forbidden")
    else if !safeTopologyName config.requestStream || !safeTopologyName config.responseStream then
      .error (.invalidData "invalid JetStream topology name")
    else .ok ()

/-- `Config::from_env`. -/
def Config.fromEnv (environment : Environment) : Except ConfigError (Option Config) :=
  match optionalEnv environment urlVariable with
  | none => .ok none
  | some url => do
    let credentialsPath ← requiredEnv environment "APME_NATS_CREDENTIALS_FILE"
    let requestStream := (optionalEnv environment "APME_NATS_REQUEST_STREAM").getD "APME_STATUS_OUTBOX"
    let responseStream := (optionalEnv environment "APME_NATS_RESPONSE_STREAM").getD "APME_STATUS_INBOX"
    let config : Config := ⟨url, credentialsPath, requestStream, responseStream⟩
    config.validate
    .ok (some config)

/-! ### Streams -/

inductive StorageType where
  | file
  | memory
deriving DecidableEq

inductive RetentionPolicy where
  | limits
  | interest
  | workQueue
deriving DecidableEq

/-- The configuration of a stream, as far as it is looked at. -/
structure StreamConfig where
  storage : StorageType
  retention : RetentionPolicy
  subjects : List Str
  duplicateWindow : Nat
  allowDirect : Bool
deriving DecidableEq

/-- A subject of a stream: `*` is any one token, and `>` the rest. -/
def matchesTokens : List Str → List Str → Bool
  | [], [] => true
  | token :: tokens, part :: parts =>
    if token = ['>'] then tokens = []
    else (token = ['*'] || token = part) && matchesTokens tokens parts
  | _, _ => false

/-- Whether a stream stores what is published under a subject. -/
def StreamConfig.captures (config : StreamConfig) (subject : Str) : Bool :=
  config.subjects.any fun pattern => matchesTokens (pattern.splitOn '.') (subject.splitOn '.')

def responseSubjects : Str := responseSubjectPrefix ++ ['.', '*']

/-- `validate_request_stream`: what it lets pass. -/
structure RequestStream (config : StreamConfig) : Prop where
  storage : config.storage = .file
  retention : config.retention = .workQueue
  subject : requestSubject ∈ config.subjects
  window : config.duplicateWindow ≠ 0

/-- `validate_response_stream`: what it lets pass. -/
structure ResponseStream (config : StreamConfig) : Prop where
  storage : config.storage = .file
  retention : config.retention = .limits
  direct : config.allowDirect
  subject : responseSubjects ∈ config.subjects
  window : config.duplicateWindow ≠ 0

instance (config : StreamConfig) : Decidable (RequestStream config) :=
  decidable_of_iff (config.storage = .file ∧ config.retention = .workQueue ∧
      config.subjects.contains requestSubject ∧ config.duplicateWindow ≠ 0)
    ⟨fun ⟨hstorage, hretention, hsubject, hwindow⟩ =>
      ⟨hstorage, hretention, List.contains_iff_mem.mp hsubject, hwindow⟩,
      fun h => ⟨h.storage, h.retention, List.contains_iff_mem.mpr h.subject, h.window⟩⟩

instance (config : StreamConfig) : Decidable (ResponseStream config) :=
  decidable_of_iff (config.storage = .file ∧ config.retention = .limits ∧ config.allowDirect ∧
      config.subjects.contains responseSubjects ∧ config.duplicateWindow ≠ 0)
    ⟨fun ⟨hstorage, hretention, hdirect, hsubject, hwindow⟩ =>
      ⟨hstorage, hretention, hdirect, List.contains_iff_mem.mp hsubject, hwindow⟩,
      fun h => ⟨h.storage, h.retention, h.direct, List.contains_iff_mem.mpr h.subject, h.window⟩⟩

/-- What connecting asks of the broker's client: the credentials file, the
    connection, and the streams of the broker. -/
structure Broker where
  readsCredentials : Str → Bool
  connects : Str → Bool
  getStream : Str → Option StreamConfig

/-- `Transport`, with what its streams have been checked for. -/
structure Transport where
  requestStream : StreamConfig
  responseStream : StreamConfig
  request_stream : RequestStream requestStream
  response_stream : ResponseStream responseStream

/-- `Transport::connect`. -/
def connect (broker : Broker) (config : Config) : Except ConfigError Transport := do
  config.validate
  if !broker.readsCredentials config.credentialsPath || !broker.connects config.url then
    .error .broker
  else
    match broker.getStream config.requestStream with
    | none => .error .broker
    | some requestStream =>
      if hrequest : RequestStream requestStream then
        match broker.getStream config.responseStream with
        | none => .error .broker
        | some responseStream =>
          if hresponse : ResponseStream responseStream then
            .ok ⟨requestStream, responseStream, hrequest, hresponse⟩
          else .error (.invalidData "unsafe JetStream response stream")
      else .error (.invalidData "unsafe JetStream request stream")

/-- A configuration that keeps credentials out of the URL and off the wire. -/
structure Config.Safe (config : Config) : Prop where
  url : ∃ rest, config.url = ("tls://" : Str) ++ rest ∧ Str.beforeFirst '/' rest ≠ [] ∧
    '@' ∉ Str.beforeFirst '/' rest
  request_stream : safeTopologyName config.requestStream
  response_stream : safeTopologyName config.responseStream

/-- The transport is that of a configuration: with its streams. -/
structure Transport.Uses (transport : Transport) (broker : Broker) (config : Config) : Prop where
  credentials : broker.readsCredentials config.credentialsPath
  connected : broker.connects config.url
  request_stream : broker.getStream config.requestStream = some transport.requestStream
  response_stream : broker.getStream config.responseStream = some transport.responseStream

theorem safe_of_validate {config : Config} (h : config.validate = .ok ()) : config.Safe := by
  rw [Config.validate] at h
  split at h
  · cases h
  rename_i rest hrest
  dsimp only at h
  split at h
  · cases h
  rename_i hauthority
  split at h
  · cases h
  rename_i hnames
  obtain ⟨hempty, hat⟩ := not_or.mp hauthority
  rw [Bool.or_eq_true, not_or, Bool.not_eq_true', Bool.not_eq_true', Bool.not_eq_false,
    Bool.not_eq_false] at hnames
  exact ⟨⟨rest, Str.stripPrefix_eq_some hrest, hempty, hat⟩, hnames.1, hnames.2⟩

theorem uses_of_connect {broker : Broker} {config : Config} {transport : Transport}
    (h : connect broker config = .ok transport) : config.Safe ∧ transport.Uses broker config := by
  rw [connect, Except.bind_eq_ok] at h
  obtain ⟨_, hvalid, h⟩ := h
  refine ⟨safe_of_validate hvalid, ?_⟩
  split at h
  · cases h
  rename_i hbroker
  rw [Bool.or_eq_true, not_or, Bool.not_eq_true', Bool.not_eq_true', Bool.not_eq_false,
    Bool.not_eq_false] at hbroker
  split at h
  · cases h
  rename_i requestStream hrequest
  split at h
  · split at h
    · cases h
    rename_i responseStream hresponse
    split at h
    · obtain rfl := Except.ok.inj h
      exact ⟨hbroker.1, hbroker.2, hrequest, hresponse⟩
    · cases h
  · cases h

theorem matchesTokens_self {tokens : List Str} (h : ∀ token ∈ tokens, token ≠ ['>']) :
    matchesTokens tokens tokens := by
  induction tokens with
  | nil => rfl
  | cons token tokens ih =>
    obtain ⟨htoken, htokens⟩ := List.forall_mem_cons.mp h
    rw [matchesTokens, if_neg htoken]
    simp [ih htokens]

/-- Whatever a call publishes is stored in the request stream. -/
theorem RequestStream.captures {config : StreamConfig} (h : RequestStream config) :
    config.captures requestSubject := by
  refine List.any_eq_true.mpr ⟨requestSubject, h.subject, matchesTokens_self ?_⟩
  decide

/-- Whatever is published for a call under its own subject is stored in the
    response stream. -/
theorem ResponseStream.captures {config : StreamConfig} {uuid : UuidCrate}
    (h : ResponseStream config) (huuid : uuid.DisplaysHyphenated) (operationId : Uuid) :
    config.captures (expectedSubject uuid operationId) := by
  refine List.any_eq_true.mpr ⟨responseSubjects, h.subject, ?_⟩
  have hdot : '.' ∉ uuid.display operationId := fun hmem =>
    absurd ((huuid operationId).2 '.' hmem) (by decide)
  have hprefix : ∀ token : Str, '.' ∉ token →
      (responseSubjectPrefix ++ '.' :: token).splitOn '.' =
        responseSubjectPrefix.splitOn '.' ++ [token] := by
    intro token htoken
    rw [List.splitOn_append_cons_self, List.splitOn_eq_singleton htoken]
  have hmatch : ∀ tokens : List Str, (∀ token ∈ tokens, token ≠ ['>']) → ∀ part,
      matchesTokens (tokens ++ [['*']]) (tokens ++ [part]) := by
    intro tokens htokens part
    induction tokens with
    | nil => rfl
    | cons token tokens ih =>
      obtain ⟨htoken, htokens⟩ := List.forall_mem_cons.mp htokens
      rw [List.cons_append, List.cons_append, matchesTokens, if_neg htoken]
      simp [ih htokens]
  rw [responseSubjects, expectedSubject, hprefix ['*'] (by decide), hprefix _ hdot]
  exact hmatch _ (by decide) _

end Nats

end DataPlane
