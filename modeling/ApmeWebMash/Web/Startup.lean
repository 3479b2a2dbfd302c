-- SUMMARY: The start of the web service, and that it calls exactly the avenues that were asked for and are configured soundly.
import ApmeWebMash.Base.IpAddr
import ApmeWebMash.DataPlane.Configuration
import ApmeWebMash.DataPlane.HttpCases
import ApmeWebMash.Web.DataPlaneRequest

/-! # Startup

`main` reads its variables, connects what they ask for, and serves. It gives up
at the first of them that is wrong, so a service that runs has every transport
that it was asked for. What it finds around it is given by the outcome of each
operation. -/

namespace Web

open DataPlane (optionalEnv)

/-! ## Shared Auth -/

/-- `shared_auth_client`: which base URLs are accepted, and the outcome of an
    introspection by a client with a base and a service credential. -/
structure AuthClientCrate where
  accepts : Str → Bool
  introspect : Str → Option Str → Str → Str → List Str → Except ClientError Introspection

/-- `required_env`. -/
def requiredEnv (environment : Environment) (name : Str) : Except AuthError Str :=
  match (envVar environment name).bind fun value => validateClaim value (16 * 1024) with
  | some value => .ok value
  | none => .error .configuration

section
variable (crate : AuthClientCrate)

/-- `SharedAuthVerifier::try_new`. -/
def SharedAuthVerifier.tryNew (base : Str) (serviceCredential : Option Str) (audience issuer : Str) :
    Except AuthError SharedAuthVerifier :=
  match validateClaim audience 128, validateClaim issuer 256 with
  | some _, some _ =>
    if crate.accepts base then .ok ⟨crate.introspect base serviceCredential, audience, issuer⟩
    else .error .configuration
  | _, _ => .error .configuration

/-- `SharedAuthVerifier::from_env`. -/
def SharedAuthVerifier.fromEnv (environment : Environment) : Except AuthError SharedAuthVerifier := do
  let base ← requiredEnv environment "SHARED_AUTH_BASE_URL"
  let serviceCredential ← requiredEnv environment "SHARED_AUTH_INTROSPECTION_CREDENTIAL"
  let audience ← requiredEnv environment "SHARED_AUTH_AUDIENCE"
  let issuer ← requiredEnv environment "SHARED_AUTH_ISSUER"
  SharedAuthVerifier.tryNew crate base (some serviceCredential) audience issuer

end

/-! ## The service -/

/-- What `main` finds around it. -/
structure Machine where
  logs : Bool
  authClient : AuthClientCrate
  connectDatabase : Str → Option (Uuid → Option Json)
  urls : DataPlane.Http.UrlCrate
  client : DataPlane.Http.Client
  tls : DataPlane.Tcp.Tls
  arrives : DataPlane.Tcp.Call → DataPlane.Tcp.Arrival
  broker : DataPlane.Nats.Broker
  status : DataPlane.Nats.Transport → Uuid → Option Json
  binds : IpAddr.SocketAddr → Bool

/-- Why `main` gives up; a panic of a connection is one of `main`. -/
inductive StartError where
  | logger
  | auth (error : AuthError)
  | database
  | http (error : DataPlane.Http.Error)
  | tcp (failure : DataPlane.Tcp.Failure)
  | nats (error : DataPlane.Nats.ConfigError)
  | address
  | bind
deriving DecidableEq

/-- What is served, and where. -/
structure Server where
  state : AppState
  address : IpAddr.SocketAddr

def databaseVariable : Str := "DATABASE_URL"

section
variable (serde : SerdeJson) (uuid : UuidCrate) (machine : Machine) (environment : Environment)

/-- The URL of the database, if one is asked for. -/
def databaseUrl : Option Str := (envVar environment databaseVariable).filter fun url => Str.trim url ≠ []

def connectDatabase : Except StartError (Option (Uuid → Option Json)) :=
  match databaseUrl environment with
  | none => .ok none
  | some url =>
    match machine.connectDatabase url with
    | none => .error .database
    | some database => .ok (some database)

def connectTcp : Except StartError (Option (DataPlane.Tcp.Session machine.tls)) :=
  match DataPlane.Tcp.Config.fromEnv environment with
  | .error error => .error (.tcp (.error error))
  | .ok none => .ok none
  | .ok (some config) => ((DataPlane.Tcp.connect machine.tls config).map some).mapError .tcp

def connectNats : Except StartError (Option DataPlane.Nats.Transport) :=
  match DataPlane.Nats.Config.fromEnv environment with
  | .error error => .error (.nats error)
  | .ok none => .ok none
  | .ok (some config) => ((DataPlane.Nats.connect machine.broker config).map some).mapError .nats

/-- A `cases` call on the channel. -/
def tcpCases (requestId tenantId : Uuid) (token : Str) : Option Json :=
  let call : DataPlane.Tcp.Call := ⟨requestId, tenantId, token⟩
  ((DataPlane.Tcp.requestPayload serde uuid call).bind fun _ =>
    DataPlane.Tcp.receiveResponse serde uuid requestId (machine.arrives call)).toOption

/-- `main`, up to the loop that serves. -/
def main : Except StartError Server := do
  if !machine.logs then throw .logger
  let auth ← (SharedAuthVerifier.fromEnv machine.authClient environment).mapError .auth
  let database ← connectDatabase machine environment
  let http ← (DataPlane.Http.fromEnv machine.urls environment).mapError .http
  let tcp ← connectTcp machine environment
  let nats ← connectNats machine environment
  match IpAddr.parseSocketAddr ((envVar environment "BIND_ADDR").getD "127.0.0.1:8080") with
  | none => throw .address
  | some address =>
    if !machine.binds address then throw .bind
    pure {
      state := {
        auth
        database
        http := http.map fun transport token tenantId =>
          (DataPlane.Http.cases serde uuid machine.client transport token tenantId).toOption
        tcp := tcp.map fun _ => tcpCases serde uuid machine
        nats := nats.map machine.status }
      address }

end

/-! ## What is asked for -/

section
variable (uuid : UuidCrate) (machine : Machine) (environment : Environment)

/-- The avenue of a call is asked for. -/
def Wanted : TransportCall → Prop
  | .direct _ => (databaseUrl environment).isSome
  | .http _ _ => (optionalEnv environment DataPlane.Http.baseVariable).isSome
  | .tcp _ _ _ => (optionalEnv environment DataPlane.Tcp.addressVariable).isSome
  | .nats _ => (optionalEnv environment DataPlane.Nats.urlVariable).isSome

/-- The avenue of a call is configured as it should be: the database is
    connected, the base URL is accepted, the channel is mutual TLS with a provider
    and the files of its configuration, and the broker is spoken to over TLS, with
    streams that store what either side publishes. -/
def Sound : TransportCall → Prop
  | .direct _ => ∃ url, databaseUrl environment = some url ∧ (machine.connectDatabase url).isSome
  | .http _ _ => ∃ base url, optionalEnv environment DataPlane.Http.baseVariable = some base ∧
    DataPlane.Http.Accepted machine.urls base url
  | .tcp _ _ _ => machine.tls.hasProvider ∧
    ∃ config, ∃ session : DataPlane.Tcp.Session machine.tls,
      DataPlane.Tcp.Config.fromEnv environment = .ok (some config) ∧ session.Uses config
  | .nats operationId => ∃ config, ∃ transport : DataPlane.Nats.Transport,
    DataPlane.Nats.Config.fromEnv environment = .ok (some config) ∧ config.Safe ∧
    transport.Uses machine.broker config ∧
    transport.requestStream.captures DataPlane.Nats.requestSubject ∧
    transport.responseStream.captures (DataPlane.Nats.expectedSubject uuid operationId)

end

variable {serde : SerdeJson} {uuid : UuidCrate} {machine : Machine} {environment : Environment}
  {server : Server}

/-! ## Connecting -/

theorem connectDatabase_cases {database : Option (Uuid → Option Json)}
    (h : connectDatabase machine environment = .ok database) :
    (databaseUrl environment = none ∧ database = none) ∨
      ∃ url connection, databaseUrl environment = some url ∧
        machine.connectDatabase url = some connection ∧ database = some connection := by
  rw [connectDatabase] at h
  split at h
  · rename_i hnone
    exact .inl ⟨hnone, (Except.ok.inj h).symm⟩
  · rename_i url hurl
    split at h
    · cases h
    · rename_i connection hconnection
      exact .inr ⟨url, connection, hurl, hconnection, (Except.ok.inj h).symm⟩

theorem httpFromEnv_cases {http : Option DataPlane.Http.Transport}
    (h : DataPlane.Http.fromEnv machine.urls environment = .ok http) :
    (optionalEnv environment DataPlane.Http.baseVariable = none ∧ http = none) ∨
      ∃ base transport, optionalEnv environment DataPlane.Http.baseVariable = some base ∧
        DataPlane.Http.tryNew machine.urls base = .ok transport ∧ http = some transport := by
  rw [DataPlane.Http.fromEnv] at h
  split at h
  · rename_i hnone
    exact .inl ⟨hnone, (Except.ok.inj h).symm⟩
  · rename_i base hbase
    obtain ⟨transport, htransport, hhttp⟩ := Except.map_eq_ok.mp h
    exact .inr ⟨base, transport, hbase, htransport, hhttp.symm⟩

/-- Only the variable that asks for the channel decides whether there is a
    configuration. -/
theorem tcpFromEnv_isSome {config : Option DataPlane.Tcp.Config}
    (h : DataPlane.Tcp.Config.fromEnv environment = .ok config) :
    config.isSome ↔ (optionalEnv environment DataPlane.Tcp.addressVariable).isSome := by
  rw [DataPlane.Tcp.Config.fromEnv] at h
  split at h
  · rename_i hnone
    obtain rfl := Except.ok.inj h
    rw [hnone]
    rfl
  · rename_i address haddress
    simp only [Except.bind_eq_ok] at h
    obtain ⟨_, _, _, _, _, _, _, _, h⟩ := h
    obtain rfl := Except.ok.inj h
    rw [haddress]
    rfl

theorem connectTcp_cases {tcp : Option (DataPlane.Tcp.Session machine.tls)}
    (h : connectTcp machine environment = .ok tcp) :
    (optionalEnv environment DataPlane.Tcp.addressVariable = none ∧ tcp = none) ∨
      ∃ config session, (optionalEnv environment DataPlane.Tcp.addressVariable).isSome ∧
        DataPlane.Tcp.Config.fromEnv environment = .ok (some config) ∧
        DataPlane.Tcp.connect machine.tls config = .ok session ∧ tcp = some session := by
  rw [connectTcp] at h
  split at h
  · cases h
  · rename_i hconfig
    refine .inl ⟨?_, (Except.ok.inj h).symm⟩
    simpa using (tcpFromEnv_isSome hconfig).not.mp (by simp)
  · rename_i config hconfig
    obtain ⟨session, hsession, htcp⟩ := Except.map_eq_ok.mp (Except.mapError_eq_ok.mp h)
    exact .inr ⟨config, session, (tcpFromEnv_isSome hconfig).mp rfl, hconfig, hsession, htcp.symm⟩

theorem natsFromEnv_isSome {config : Option DataPlane.Nats.Config}
    (h : DataPlane.Nats.Config.fromEnv environment = .ok config) :
    config.isSome ↔ (optionalEnv environment DataPlane.Nats.urlVariable).isSome := by
  rw [DataPlane.Nats.Config.fromEnv] at h
  split at h
  · rename_i hnone
    obtain rfl := Except.ok.inj h
    rw [hnone]
    rfl
  · rename_i url hurl
    simp only [Except.bind_eq_ok] at h
    obtain ⟨_, _, _, _, h⟩ := h
    obtain rfl := Except.ok.inj h
    rw [hurl]
    rfl

theorem connectNats_cases {nats : Option DataPlane.Nats.Transport}
    (h : connectNats machine environment = .ok nats) :
    (optionalEnv environment DataPlane.Nats.urlVariable = none ∧ nats = none) ∨
      ∃ config transport, (optionalEnv environment DataPlane.Nats.urlVariable).isSome ∧
        DataPlane.Nats.Config.fromEnv environment = .ok (some config) ∧
        DataPlane.Nats.connect machine.broker config = .ok transport ∧ nats = some transport := by
  rw [connectNats] at h
  split at h
  · cases h
  · rename_i hconfig
    refine .inl ⟨?_, (Except.ok.inj h).symm⟩
    simpa using (natsFromEnv_isSome hconfig).not.mp (by simp)
  · rename_i config hconfig
    obtain ⟨transport, htransport, hnats⟩ := Except.map_eq_ok.mp (Except.mapError_eq_ok.mp h)
    exact .inr ⟨config, transport, (natsFromEnv_isSome hconfig).mp rfl, hconfig, htransport,
      hnats.symm⟩

/-! ## After the start -/

/-- A service that has started has connected what it was asked for. -/
theorem exists_connections (h : main serde uuid machine environment = .ok server) :
    ∃ database http tcp nats, connectDatabase machine environment = .ok database ∧
      DataPlane.Http.fromEnv machine.urls environment = .ok http ∧
      connectTcp machine environment = .ok tcp ∧ connectNats machine environment = .ok nats ∧
      server.state.database = database ∧ server.state.http.isSome = http.isSome ∧
      server.state.tcp.isSome = tcp.isSome ∧ server.state.nats.isSome = nats.isSome := by
  rw [main] at h
  split at h
  · cases h
  simp only [Except.bind_eq_ok, Except.mapError_eq_ok] at h
  obtain ⟨auth, hauth, database, hdatabase, http, hhttp, tcp, htcp, nats, hnats, h⟩ := h
  split at h
  · cases h
  split at h
  · cases h
  obtain rfl := Except.ok.inj h
  exact ⟨database, http, tcp, nats, hdatabase, hhttp, htcp, hnats, rfl, Option.isSome_map,
    Option.isSome_map, Option.isSome_map⟩

/-- The avenues of a service are those that were asked for. -/
theorem configured_iff (h : main serde uuid machine environment = .ok server) (call : TransportCall) :
    server.state.Configured call ↔ Wanted environment call := by
  obtain ⟨database, http, tcp, nats, hdatabase, hhttp, htcp, hnats, hstate⟩ := exists_connections h
  obtain ⟨hstateDatabase, hstateHttp, hstateTcp, hstateNats⟩ := hstate
  cases call with
  | direct _ =>
    rw [AppState.Configured, hstateDatabase, Wanted]
    rcases connectDatabase_cases hdatabase with ⟨hurl, rfl⟩ | ⟨url, connection, hurl, -, rfl⟩ <;>
      simp [hurl]
  | http _ _ =>
    rw [AppState.Configured, hstateHttp, Wanted]
    rcases httpFromEnv_cases hhttp with ⟨hbase, rfl⟩ | ⟨base, transport, hbase, -, rfl⟩ <;>
      simp [hbase]
  | tcp _ _ _ =>
    rw [AppState.Configured, hstateTcp, Wanted]
    rcases connectTcp_cases htcp with ⟨haddress, rfl⟩ | ⟨_, _, haddress, -, -, rfl⟩ <;>
      simp [haddress]
  | nats _ =>
    rw [AppState.Configured, hstateNats, Wanted]
    rcases connectNats_cases hnats with ⟨hurl, rfl⟩ | ⟨_, _, hurl, -, -, rfl⟩ <;> simp [hurl]

/-- What was asked for is configured as it should be, or the service would not
    have started. -/
theorem sound_of_wanted (huuid : uuid.DisplaysHyphenated)
    (h : main serde uuid machine environment = .ok server) {call : TransportCall}
    (hwanted : Wanted environment call) : Sound uuid machine environment call := by
  obtain ⟨database, http, tcp, nats, hdatabase, hhttp, htcp, hnats, -⟩ := exists_connections h
  -- each avenue is either not asked for, or connected before the service starts
  cases call with
  | direct _ =>
    rcases connectDatabase_cases hdatabase with ⟨hurl, -⟩ | ⟨url, connection, hurl, hconnection, -⟩
    · simp [Wanted, hurl] at hwanted
    · exact ⟨url, hurl, by rw [hconnection]; rfl⟩
  | http _ _ =>
    rcases httpFromEnv_cases hhttp with ⟨hbase, -⟩ | ⟨base, transport, hbase, htransport, -⟩
    · simp [Wanted, hbase] at hwanted
    · obtain ⟨url, hurl⟩ := DataPlane.Http.exists_transport_iff.mp ⟨transport, htransport⟩
      exact ⟨base, url, hbase, hurl⟩
  | tcp _ _ _ =>
    rcases connectTcp_cases htcp with ⟨haddress, -⟩ | ⟨config, session, -, hconfig, hsession, -⟩
    · simp [Wanted, haddress] at hwanted
    · exact ⟨session.has_provider, config, session, hconfig,
        DataPlane.Tcp.uses_of_connect hsession⟩
  | nats operationId =>
    rcases connectNats_cases hnats with ⟨hurl, -⟩ | ⟨config, transport, -, hconfig, htransport, -⟩
    · simp [Wanted, hurl] at hwanted
    · obtain ⟨hsafe, huses⟩ := DataPlane.Nats.uses_of_connect htransport
      exact ⟨config, transport, hconfig, hsafe, huses, transport.request_stream.captures,
        transport.response_stream.captures huuid operationId⟩

/-- Where `rustls` has no provider, a service that is asked for the channel does
    not start. -/
theorem main_ne_ok (huuid : uuid.DisplaysHyphenated)
    (haddress : (optionalEnv environment DataPlane.Tcp.addressVariable).isSome)
    (hprovider : machine.tls.hasProvider = false) : main serde uuid machine environment ≠ .ok server := by
  intro h
  have hwanted : Wanted environment (.tcp 0 0 []) := haddress
  have hsound := sound_of_wanted huuid h hwanted
  rw [hsound.1] at hprovider
  cases hprovider

/-- What a request leads to: the call of its avenue, if it is authorised and the
    avenue is configured. -/
theorem mem_calls_iff {http : HttpCrate} {state : AppState} {surroundings : Surroundings}
    {avenue : Str} {headers : HeaderMap} (call : TransportCall) :
    call ∈ (handle http uuid state surroundings avenue headers).2 ↔
      Permitted http uuid state surroundings avenue headers call := by
  constructor
  · intro hcall
    by_cases hauthorized : ∃ token identity,
        Authorized http uuid state surroundings headers token identity
    · obtain ⟨token, identity, hauthorized⟩ := hauthorized
      rw [handle_authorized hauthorized] at hcall
      rcases served_serve state surroundings avenue token identity with
        ⟨call', hserves, hconfigured, hrun⟩ | ⟨-, hrefused, -⟩
      · rw [hrun, List.mem_singleton] at hcall
        subst hcall
        exact ⟨token, identity, hauthorized, hserves, hconfigured⟩
      -- an avenue that is not configured is refused without a call
      · rw [hrefused] at hcall
        cases hcall
    · obtain ⟨hnone, -⟩ := @refused_of_not_authorized http uuid state surroundings avenue headers
        fun token identity h => hauthorized ⟨token, identity, h⟩
      rw [hnone] at hcall
      cases hcall
  · rintro ⟨token, identity, hauthorized, hserves, hconfigured⟩
    rw [handle_authorized hauthorized]
    rcases served_serve state surroundings avenue token identity with
      ⟨call', hserves', -, hrun⟩ | ⟨hnone, -⟩
    · rw [hrun, hserves'.unique hserves]
      exact List.mem_singleton_self call
    · exact absurd hconfigured (hnone call hserves)

/-- A service that runs calls an avenue for a request exactly if the request is
    authorised and the avenue was asked for, and every avenue that was asked for
    is configured as it should be. -/
theorem started_calls (huuid : uuid.DisplaysHyphenated)
    (h : main serde uuid machine environment = .ok server) (http : HttpCrate)
    (surroundings : Surroundings) (avenue : Str) (headers : HeaderMap) :
    (∀ call, call ∈ (handle http uuid server.state surroundings avenue headers).2 ↔
      Wanted environment call ∧ ∃ token identity,
        Authorized http uuid server.state surroundings headers token identity ∧
        call.Serves surroundings avenue token identity) ∧
    ∀ call, Wanted environment call → Sound uuid machine environment call := by
  refine ⟨fun call => ?_, fun call => sound_of_wanted huuid h⟩
  rw [mem_calls_iff, ← configured_iff h]
  constructor
  · rintro ⟨token, identity, hauthorized, hserves, hconfigured⟩
    exact ⟨hconfigured, token, identity, hauthorized, hserves⟩
  · rintro ⟨hconfigured, token, identity, hauthorized, hserves⟩
    exact ⟨token, identity, hauthorized, hserves, hconfigured⟩

/-! ## A start -/

/-- Variables that ask for the database and for the HTTP avenue. -/
def sampleEnvironment : Environment := fun name =>
  (([("SHARED_AUTH_BASE_URL", "https://auth"), ("SHARED_AUTH_INTROSPECTION_CREDENTIAL", "secret"),
    ("SHARED_AUTH_AUDIENCE", "apme"), ("SHARED_AUTH_ISSUER", "https://auth/realm"),
    ("DATABASE_URL", "postgres://db"), ("APME_API_HTTP_BASE", " http://api ")] :
    List (Str × Str)).find? (·.1 = name)).map fun pair => Utf8.encode pair.2

/-- Surroundings with a database and an API, in which `rustls` has two providers
    compiled in and none installed. -/
def sampleMachine : Machine where
  logs := true
  authClient := ⟨fun _ => true, fun _ _ _ _ _ => .error .unauthorized⟩
  connectDatabase _ := some fun _ => none
  urls := {
    parse := fun _ => some ⟨"http", [], none, some (.domain "api" (by decide)), "/", none, none⟩
    setPath := fun url path => { url with path }
    clientBuilds := true }
  client := DataPlane.Http.cutClient
  tls := {
    read := fun path => some (Utf8.encode path)
    certs := fun bytes => some [bytes]
    isRoot := fun _ => true
    privateKey := fun bytes => some (some bytes)
    hasProvider := false
    takesClientAuth := fun _ _ => true
    connect := fun _ => some true
    setsNodelay := true
    isServerName := fun _ => true
    handshake := fun _ _ _ _ => some true }
  arrives _ := .closed
  broker := {
    readsCredentials := fun _ => true
    connects := fun _ => true
    getStream := fun name => some (
      if name = "APME_STATUS_OUTBOX" then
        ⟨.file, .workQueue, [DataPlane.Nats.requestSubject], 1, false⟩
      else ⟨.file, .limits, [DataPlane.Nats.responseSubjects], 1, true⟩) }
  status _ _ := none
  binds _ := true

/-- The service starts, and does not call the avenues that it was not asked for. -/
theorem started_calls_sample :
    ∃ server, main .compact .hyphenated sampleMachine sampleEnvironment = .ok server ∧
      (∀ surroundings avenue headers call,
        call ∈ (handle .ascii .hyphenated server.state surroundings avenue headers).2 →
        Wanted sampleEnvironment call) ∧
      (∀ call, Wanted sampleEnvironment call →
        Sound .hyphenated sampleMachine sampleEnvironment call) ∧
      (∀ tenantId, Wanted sampleEnvironment (.direct tenantId)) ∧
      (∀ token tenantId, Wanted sampleEnvironment (.http token tenantId)) ∧
      ∀ requestId tenantId token, ¬ Wanted sampleEnvironment (.tcp requestId tenantId token) := by
  have hok : (main .compact .hyphenated sampleMachine sampleEnvironment).isOk := by decide +kernel
  cases hmain : main .compact .hyphenated sampleMachine sampleEnvironment with
  | error error =>
    rw [hmain] at hok
    cases hok
  | ok server =>
    have hcalls := started_calls UuidCrate.hyphenated_displays hmain .ascii
    refine ⟨server, rfl, fun surroundings avenue headers call hcall =>
      ((hcalls surroundings avenue headers).1 call |>.mp hcall).1, (hcalls ⟨⟨0, 0⟩, 0⟩ [] []).2,
      fun _ => ?_, fun _ _ => ?_, fun _ _ _ => ?_⟩
    · have hurl : (databaseUrl sampleEnvironment).isSome := by decide +kernel
      exact hurl
    · have hbase : (optionalEnv sampleEnvironment DataPlane.Http.baseVariable).isSome := by
        decide +kernel
      exact hbase
    · have haddress : ¬ (optionalEnv sampleEnvironment DataPlane.Tcp.addressVariable).isSome := by
        decide +kernel
      exact haddress

end Web
