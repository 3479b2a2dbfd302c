-- SUMMARY: The HTTP avenue: which base URLs are accepted, and to which hosts a bearer may go in clear.
import ApmeWebMash.Base.IpAddr
import ApmeWebMash.Base.Separator

/-! # The HTTP avenue

`Transport::try_new` of the module `data_plane::http` parses the base URL and
rejects what it does not accept. The `url` crate is not part of the repository:
a URL is given by what the code asks of it. -/

namespace DataPlane.Http

/-! ## URLs -/

/-- The host of a URL. A domain is no address, and the text of an IPv6 address
    has no dots. -/
inductive UrlHost where
  | domain (name : Str) (not_address : IpAddr.parse name = none)
  | ipv4 (address : Ipv4)
  | ipv6 (address : Ipv6) (text : Str) (no_dot : '.' ∉ text)
deriving DecidableEq

/-- `Host::Display`, as `host_str` returns it. -/
def UrlHost.text : UrlHost → Str
  | .domain name _ => name
  | .ipv4 address => address.display
  | .ipv6 _ text _ => '[' :: text ++ [']']

/-- `Url`, by its components. -/
structure Url where
  scheme : Str
  username : Str
  password : Option Str
  host : Option UrlHost
  path : Str
  query : Option Str
  fragment : Option Str
deriving DecidableEq

/-- `Url::host_str`. -/
def Url.hostStr (url : Url) : Option Str := url.host.map UrlHost.text

/-- `url` and `reqwest`: the parser, `Url::set_path`, and whether the client can
    be built. -/
structure UrlCrate where
  parse : Str → Option Url
  setPath : Url → Str → Url
  clientBuilds : Bool

/-! ## The transport -/

inductive Error where
  | invalidConfiguration
  | invalidCredential
  | unavailable
  | rejected
  | responseTooLarge
deriving DecidableEq

/-- `Transport`, without its client. -/
structure Transport where
  base : Url
deriving DecidableEq

/-- The address classes to which cleartext may go. -/
def isLocalAddress : IpAddr → Bool
  | .v4 address => address.isLoopback || address.isPrivate || address.isLinkLocal
  | .v6 address =>
    let first := Ipv6.firstSegment address
    Ipv6.isLoopback address || first &&& 0xfe00 == 0xfc00 || first &&& 0xffc0 == 0xfe80

/-- `str::ends_with`. -/
def endsWith (text suffix : Str) : Bool := decide (suffix <:+ text)

/-- `transport_is_acceptable`. -/
def transportIsAcceptable (url : Url) : Bool :=
  if url.scheme = "https" then true
  else if url.scheme ≠ "http" then false
  else
    match url.hostStr with
    | none => false
    | some host =>
      host = "localhost" || endsWith host ".localhost" || decide ('.' ∉ host) ||
        endsWith host ".svc.cluster.local" || endsWith host ".internal" ||
        (IpAddr.parse host).any isLocalAddress

/-- The checks of `try_new` that leave the scheme and the host aside. -/
def isBare (url : Url) : Bool :=
  url.username = [] && url.password.isNone && url.query.isNone && url.fragment.isNone

/-- `Transport::try_new`. -/
def tryNew (crate : UrlCrate) (base : Str) : Except Error Transport :=
  match crate.parse base with
  | none => .error .invalidConfiguration
  | some base =>
    if base.hostStr.isNone || !isBare base || !transportIsAcceptable base then
      .error .invalidConfiguration
    else
      let path := base.path.rdropWhile (· = '/')
      let base := crate.setPath base (if path = [] then "/" else path)
      if crate.clientBuilds then .ok ⟨base⟩ else .error .invalidConfiguration

/-! ## The cleartext rule -/

/-- A domain name inside the deployment. -/
def isLocalName (name : Str) : Bool :=
  name = "localhost" || endsWith name ".localhost" || endsWith name ".svc.cluster.local" ||
    endsWith name ".internal" || decide ('.' ∉ name)

/-- The loopback, private and link-local networks. -/
def IsLocalIpv4 (address : Ipv4) : Prop :=
  address.In ⟨127, 0, 0, 0⟩ 8 ∨
    (address.In ⟨10, 0, 0, 0⟩ 8 ∨ address.In ⟨172, 16, 0, 0⟩ 12 ∨ address.In ⟨192, 168, 0, 0⟩ 16) ∨
    address.In ⟨169, 254, 0, 0⟩ 16

/-- The loopback address, and the unique-local and link-local networks. -/
def IsLocalIpv6 (address : Ipv6) : Prop :=
  address = 1 ∨ address.In (0xfc00 <<< 112) 7 ∨ address.In (0xfe80 <<< 112) 10

instance (address : Ipv6) : Decidable (IsLocalIpv6 address) :=
  inferInstanceAs (Decidable (_ ∨ _ ∨ _))

/-- A host that a bearer may be sent to in clear. -/
def UrlHost.IsLocal : UrlHost → Prop
  | .domain name _ => isLocalName name
  | .ipv4 address => IsLocalIpv4 address
  | .ipv6 address _ _ => IsLocalIpv6 address

/-- A URL whose traffic no one outside the deployment can read. -/
def Confidential (url : Url) : Prop :=
  url.scheme = "https" ∨ (url.scheme = "http" ∧ ∃ host, url.host = some host ∧ host.IsLocal)

/-- The rule for a base URL: if it is accepted, it is confidential. -/
def CleartextRule (crate : UrlCrate) (base : Str) : Prop :=
  ∀ transport, tryNew crate base = .ok transport →
    ∃ url, crate.parse base = some url ∧ Confidential url

/-- A base URL that is fit for a transport but for its host: an IPv6 address
    outside the deployment, over HTTP. -/
structure IsPublicIpv6 (crate : UrlCrate) (base : Str) (url : Url) : Prop where
  parse_eq : crate.parse base = some url
  is_bare : isBare url
  scheme_eq : url.scheme = "http"
  exists_host : ∃ address text no_dot, url.host = some (.ipv6 address text no_dot) ∧
    ¬ IsLocalIpv6 address
  client_builds : crate.clientBuilds

/-! ## Hosts -/

theorem isLocalAddress_v4 {address : Ipv4} : isLocalAddress (.v4 address) ↔ IsLocalIpv4 address := by
  rw [isLocalAddress, Bool.or_eq_true, Bool.or_eq_true, Ipv4.isLoopback_iff, Ipv4.isPrivate_iff,
    Ipv4.isLinkLocal_iff, or_assoc, IsLocalIpv4]

/-- The program tests the first segment under masks. -/
theorem isLocalAddress_v6 {address : Ipv6} : isLocalAddress (.v6 address) ↔ IsLocalIpv6 address := by
  have hunique := @Ipv6.firstSegment_and_iff address (0xfc00 <<< 112) 7 0xfe00 0xfc00
    (by decide) (by decide) (by decide) (by decide)
  have hlink := @Ipv6.firstSegment_and_iff address (0xfe80 <<< 112) 10 0xffc0 0xfe80
    (by decide) (by decide) (by decide) (by decide)
  simp only [isLocalAddress, Ipv6.isLoopback, Bool.or_eq_true, decide_eq_true_eq, beq_iff_eq, hunique,
    hlink, or_assoc]
  exact Iff.rfl

/-- An IPv4 address ends in a digit. -/
theorem getLast_display (address : Ipv4) :
    ∃ c, address.display.getLast? = some c ∧ c.isLower = false := by
  have hdisplay : ∃ before, address.display = before ++ Numeral.decimal address.d.toNat :=
    ⟨Numeral.decimal address.a.toNat ++ '.' :: (Numeral.decimal address.b.toNat ++
      '.' :: (Numeral.decimal address.c.toNat ++ ['.'])), by simp [Ipv4.display]⟩
  obtain ⟨before, hbefore⟩ := hdisplay
  have hne := (Numeral.writes_decimal address.d.toNat).ne_nil
  refine ⟨(Numeral.decimal address.d.toNat).getLast hne, ?_, ?_⟩
  · rw [hbefore, List.getLast?_append, List.getLast?_eq_some_getLast hne, Option.some_or]
  · have hdigit := Numeral.isDigit_decimal _ _ (List.getLast_mem hne)
    rw [Str.isDigit_iff] at hdigit
    rw [Bool.eq_false_iff, ne_eq, Str.isLower_iff]
    omega

/-- So it has no suffix that ends in a letter. -/
theorem endsWith_display (address : Ipv4) {suffix : Str} {c : Char} (hlast : suffix.getLast? = some c)
    (hc : c.isLower) : endsWith address.display suffix = false := by
  obtain ⟨digit, hdigit, hlower⟩ := getLast_display address
  rw [endsWith, decide_eq_false_iff_not]
  rintro ⟨before, hbefore⟩
  rw [← hbefore, List.getLast?_append, hlast, Option.some_or] at hdigit
  rw [Option.some.inj hdigit, hlower] at hc
  cases hc

theorem isLocalName_display (address : Ipv4) : isLocalName address.display = false := by
  have hlocalhost : address.display ≠ "localhost" := by
    intro heq
    have hends : endsWith address.display "localhost" = false :=
      endsWith_display address (c := 't') (by decide) (by decide)
    rw [heq] at hends
    exact absurd hends (by decide)
  have hdot : '.' ∈ address.display := List.mem_append_right _ List.mem_cons_self
  have hletters : ∀ suffix ∈ ([".localhost", ".svc.cluster.local", ".internal"] : List Str),
      suffix.getLast?.any Char.isLower = true := by decide
  have hnames : ∀ suffix ∈ ([".localhost", ".svc.cluster.local", ".internal"] : List Str),
      endsWith address.display suffix = false := by
    intro suffix hsuffix
    obtain ⟨c, hlast, hc⟩ := (Option.any_eq_true _ _).mp (hletters suffix hsuffix)
    exact endsWith_display address hlast hc
  simp only [List.forall_mem_cons] at hnames
  obtain ⟨hsub, hcluster, hinternal, -⟩ := hnames
  rw [isLocalName, hsub, hcluster, hinternal, decide_eq_false hlocalhost,
    decide_eq_false (not_not.mpr hdot)]
  rfl

/-- Over HTTP the text of the host decides: as a name, or as an address. -/
theorem acceptable_eq {url : Url} {host : UrlHost} (hscheme : url.scheme = "http")
    (hhost : url.host = some host) :
    transportIsAcceptable url =
      (isLocalName host.text || (IpAddr.parse host.text).any isLocalAddress) := by
  have hsecure : url.scheme ≠ "https" := by
    rw [hscheme]
    decide
  rw [transportIsAcceptable, if_neg hsecure, if_neg (not_not.mpr hscheme), Url.hostStr, hhost,
    Option.map_some]
  dsimp only
  rw [isLocalName]
  congr 1
  -- only the place of the dot test differs
  rw [Bool.or_right_comm _ _ (endsWith host.text ".svc.cluster.local"),
    Bool.or_right_comm _ _ (endsWith host.text ".internal")]

/-- Over HTTP a host is accepted if it is local, and so is any IPv6 address. -/
theorem acceptable_iff {url : Url} {host : UrlHost} (hscheme : url.scheme = "http")
    (hhost : url.host = some host) :
    transportIsAcceptable url ↔ host.IsLocal ∨ ∃ address text no_dot,
      host = .ipv6 address text no_dot := by
  rw [acceptable_eq hscheme hhost]
  cases host with
  | domain name not_address =>
    rw [or_iff_left (by rintro ⟨_, _, _, h⟩; cases h), UrlHost.text, UrlHost.IsLocal, not_address,
      Option.any_none, Bool.or_false]
  | ipv4 address =>
    rw [or_iff_left (by rintro ⟨_, _, _, h⟩; cases h), UrlHost.text, UrlHost.IsLocal,
      isLocalName_display, Bool.false_or, IpAddr.parse_display, Option.any_some, isLocalAddress_v4]
  | ipv6 address text no_dot =>
    have hdot : '.' ∉ '[' :: text ++ [']'] := by
      simp [no_dot]
    refine iff_of_true ?_ (.inr ⟨_, _, _, rfl⟩)
    rw [UrlHost.text, isLocalName, decide_eq_true hdot, Bool.or_true, Bool.true_or]

/-! ## The rule -/

/-- What a base URL must be for a transport. -/
structure Accepted (crate : UrlCrate) (base : Str) (url : Url) : Prop where
  parse_eq : crate.parse base = some url
  has_host : url.host.isSome
  is_bare : isBare url
  acceptable : transportIsAcceptable url
  client_builds : crate.clientBuilds

theorem exists_transport_iff {crate : UrlCrate} {base : Str} :
    (∃ transport, tryNew crate base = .ok transport) ↔ ∃ url, Accepted crate base url := by
  rw [tryNew]
  cases hparse : crate.parse base with
  | none =>
    refine iff_of_false ?_ ?_
    · rintro ⟨_, h⟩
      cases h
    · rintro ⟨url, haccepted⟩
      cases hparse.symm.trans haccepted.parse_eq
  | some url =>
    dsimp only
    -- the text of a host is there if the host is
    have hhost : url.hostStr.isNone = !url.host.isSome := by
      rw [Url.hostStr, Option.isNone_map, Option.not_isSome]
    constructor
    · rintro ⟨transport, h⟩
      split at h
      · cases h
      · rename_i hchecks
        split at h
        · rename_i hbuilds
          simp only [hhost, Bool.or_eq_true, Bool.not_eq_true', not_or, Bool.not_eq_false] at hchecks
          obtain ⟨⟨hhost, hbare⟩, hacceptable⟩ := hchecks
          exact ⟨url, hparse, hhost, hbare, hacceptable, hbuilds⟩
        · cases h
    · rintro ⟨url', haccepted⟩
      obtain rfl := Option.some.inj (hparse.symm.trans haccepted.parse_eq)
      rw [hhost, haccepted.has_host, haccepted.is_bare, haccepted.acceptable,
        haccepted.client_builds]
      exact ⟨_, rfl⟩

/-- Over another scheme than HTTPS and HTTP nothing is accepted. -/
theorem scheme_of_acceptable {url : Url} (h : transportIsAcceptable url) :
    url.scheme = "https" ∨ url.scheme = "http" := by
  rw [transportIsAcceptable] at h
  split at h
  · exact .inl ‹_›
  · split at h
    · cases h
    · exact .inr (not_not.mp ‹_›)

/-- An IPv6 address outside the deployment is accepted over HTTP. -/
theorem not_cleartextRule {crate : UrlCrate} {base : Str} {url : Url}
    (h : IsPublicIpv6 crate base url) : ¬ CleartextRule crate base := by
  intro hrule
  obtain ⟨address, text, no_dot, hhost, hlocal⟩ := h.exists_host
  have hacceptable := (acceptable_iff h.scheme_eq hhost).mpr (.inr ⟨_, _, _, rfl⟩)
  obtain ⟨transport, hok⟩ := exists_transport_iff.mpr
    ⟨url, h.parse_eq, by rw [hhost]; rfl, h.is_bare, hacceptable, h.client_builds⟩
  obtain ⟨url', hparse, hconfidential⟩ := hrule transport hok
  obtain rfl := Option.some.inj (h.parse_eq.symm.trans hparse)
  rcases hconfidential with hsecure | ⟨-, host, hhost', hhostLocal⟩
  · rw [h.scheme_eq] at hsecure
    exact absurd hsecure (by decide)
  · obtain rfl := Option.some.inj (hhost.symm.trans hhost')
    exact hlocal hhostLocal

/-- The rule holds but for an IPv6 address outside the deployment, over HTTP. -/
theorem cleartextRule_iff (crate : UrlCrate) (base : Str) :
    CleartextRule crate base ↔ ¬ ∃ url, IsPublicIpv6 crate base url := by
  constructor
  · rintro hrule ⟨url, hpublic⟩
    exact not_cleartextRule hpublic hrule
  · intro hnone transport hok
    obtain ⟨url, haccepted⟩ := exists_transport_iff.mp ⟨transport, hok⟩
    refine ⟨url, haccepted.parse_eq, ?_⟩
    rcases scheme_of_acceptable haccepted.acceptable with hsecure | hclear
    · exact .inl hsecure
    · obtain ⟨host, hhost⟩ := Option.isSome_iff_exists.mp haccepted.has_host
      refine .inr ⟨hclear, host, hhost, ?_⟩
      rcases (acceptable_iff hclear hhost).mp haccepted.acceptable with
        hlocal | ⟨address, text, no_dot, rfl⟩
      · exact hlocal
      · by_contra hlocal
        exact hnone ⟨url, haccepted.parse_eq, haccepted.is_bare, hclear,
          ⟨address, text, no_dot, hhost, hlocal⟩, haccepted.client_builds⟩

/-- A parser for a host in square brackets, alone behind its scheme. -/
def bracketCrate : UrlCrate where
  parse s :=
    match Separator.cutFirst "://" s with
    | some (scheme, '[' :: rest) =>
      match IpAddr.parse (rest.takeWhile (· ≠ ']')) with
      | some (.v6 address) =>
        if h : '.' ∉ rest.takeWhile (· ≠ ']') then
          if rest.dropWhile (· ≠ ']') = [']'] then
            some ⟨scheme, [], none, some (.ipv6 address _ h), "/", none, none⟩
          else none
        else none
      | _ => none
    | _ => none
  setPath url path := { url with path }
  clientBuilds := true

/-- With an address of the public internet. -/
theorem not_cleartextRule_public :
    ¬ CleartextRule bracketCrate "http://[2606:4700:4700::1111]" := by
  have hpublic : IsPublicIpv6 bracketCrate "http://[2606:4700:4700::1111]"
      ⟨"http", [], none, some (.ipv6 0x26064700470000000000000000001111 "2606:4700:4700::1111"
        (by decide)), "/", none, none⟩ :=
    ⟨by decide +kernel, by decide, rfl, ⟨_, _, _, rfl, by decide⟩, rfl⟩
  exact not_cleartextRule hpublic

end DataPlane.Http
