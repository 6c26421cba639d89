import Odudu.ProtocolOidc.Consent

/-!
# Registered redirect URIs

`service/redirect-uri.ts`: exact string comparison, and for a loopback address registered
without a port, any port.  `isRegisteredRedirectUri_iff` says what is accepted.  The URL
parser is given.
-/

set_option autoImplicit false

namespace Odudu.ProtocolOidc

inductive ClientType where
  | isPublic
  | confidential
  deriving DecidableEq

/-- A parsed URL, by the members that are compared. -/
structure Url where
  protocol : String
  username : String
  password : String
  hostname : String
  port : String
  pathname : String
  search : String
  hash : String

namespace RedirectUri

def LOOPBACK_LITERALS : List String := ["127.0.0.1", "[::1]"]

def CIMD_LOOPBACK_HOSTS : List String := ["localhost", "127.0.0.1", "[::1]"]

/-- A character that a URL parser would drop or read in another way. -/
def isReinterpreted (c : Char) : Bool :=
  decide (c.toNat < 0x21) || decide (0x7e < c.toNat) || c == '\\'

variable (parse : String → Option Url)

def matchesLoopbackPort (presented registered : String) (hosts : List String) : Bool :=
  if presented.toList.any isReinterpreted then false
  else
    match parse registered, parse presented with
    | some base, some candidate =>
      if base.protocol != "http:" || base.port != "" then false
      else if !hosts.contains base.hostname then false
      else
        candidate.protocol == "http:" && candidate.hostname == base.hostname &&
          candidate.username == "" && candidate.password == "" && candidate.hash == "" &&
          !presented.toList.contains '#' && candidate.port != "0" &&
          candidate.pathname == base.pathname && candidate.search == base.search
    | _, _ => false

def isCimdRedirectUri (presented : String) (registered : List String) : Bool :=
  registered.contains presented ||
    registered.any fun uri ↦ matchesLoopbackPort parse presented uri CIMD_LOOPBACK_HOSTS

def isRegisteredRedirectUri (presented : String) (registered : List String)
    (clientType : ClientType) (registrationOrigin : Option RegistrationOrigin) : Bool :=
  if registered.contains presented then true
  else if registrationOrigin = some .cimd then isCimdRedirectUri parse presented registered
  else decide (clientType = .isPublic) &&
    registered.any fun uri ↦ matchesLoopbackPort parse presented uri LOOPBACK_LITERALS

/-! ### What is accepted -/

/-- The two parse to one URL on a loopback host, but for the port, which the registered one
leaves out; the presented one has no userinfo and no fragment. -/
structure LoopbackTwin (hosts : List String) (presented registered : String)
    (base candidate : Url) : Prop where
  baseParsed : parse registered = some base
  candidateParsed : parse presented = some candidate
  http : base.protocol = "http:"
  loopback : base.hostname ∈ hosts
  portless : base.port = ""
  scheme : candidate.protocol = base.protocol
  host : candidate.hostname = base.hostname
  path : candidate.pathname = base.pathname
  query : candidate.search = base.search
  username : candidate.username = ""
  password : candidate.password = ""
  hash : candidate.hash = ""
  noFragment : '#' ∉ presented.toList
  port : candidate.port ≠ "0"
  plain : ∀ c ∈ presented.toList, isReinterpreted c = false

/-- The hosts on which a client may listen at any port; none for a confidential client that
was registered. -/
def loopbackHosts (clientType : ClientType) (registrationOrigin : Option RegistrationOrigin) :
    List String :=
  if registrationOrigin = some .cimd then CIMD_LOOPBACK_HOSTS
  else if clientType = .isPublic then LOOPBACK_LITERALS else []

variable {parse} {presented registered : String} {hosts uris : List String}

theorem matchesLoopbackPort_iff :
    matchesLoopbackPort parse presented registered hosts = true ↔
      ∃ base candidate, LoopbackTwin parse hosts presented registered base candidate := by
  constructor
  · intro hmatches
    unfold matchesLoopbackPort at hmatches
    by_cases hplain : presented.toList.any isReinterpreted = true
    · simp [hplain] at hmatches
    rw [if_neg hplain] at hmatches
    split at hmatches
    · rename_i base candidate hbase hcandidate
      by_cases hport : (base.protocol != "http:" || base.port != "") = true
      · simp [hport] at hmatches
      by_cases hhost : (!hosts.contains base.hostname) = true
      · rw [if_neg hport, if_pos hhost] at hmatches
        exact absurd hmatches (by decide)
      rw [if_neg hport, if_neg hhost] at hmatches
      simp only [Bool.or_eq_true, bne_iff_ne, ne_eq, not_or, not_not] at hport
      simp only [Bool.and_eq_true, beq_iff_eq, Bool.not_eq_true', List.contains_eq_mem,
        decide_eq_false_iff_not, bne_iff_ne] at hmatches
      obtain ⟨⟨⟨⟨⟨⟨⟨⟨hscheme, hsame⟩, husername⟩, hpassword⟩, hhash⟩, hfragment⟩, hzero⟩, hpath⟩,
        hquery⟩ := hmatches
      exact ⟨base, candidate, {
        baseParsed := hbase
        candidateParsed := hcandidate
        http := hport.1
        loopback := by simpa using hhost
        portless := hport.2
        scheme := hscheme.trans hport.1.symm
        host := hsame
        path := hpath
        query := hquery
        username := husername
        password := hpassword
        hash := hhash
        noFragment := hfragment
        port := hzero
        plain := by simpa using hplain }⟩
    · exact absurd hmatches (by decide)
  · rintro ⟨base, candidate, htwin⟩
    have hplain : presented.toList.any isReinterpreted = false := by
      simpa using htwin.plain
    have hscheme : candidate.protocol = "http:" := htwin.scheme.trans htwin.http
    simp [matchesLoopbackPort, hplain, htwin.baseParsed, htwin.candidateParsed, htwin.http,
      htwin.portless, htwin.loopback, hscheme, htwin.host, htwin.path, htwin.query,
      htwin.username, htwin.password, htwin.hash, htwin.noFragment, htwin.port]

/-- Only a registered string, or the twin of one on the client's loopback hosts. -/
theorem isRegisteredRedirectUri_iff {clientType : ClientType}
    {registrationOrigin : Option RegistrationOrigin} :
    isRegisteredRedirectUri parse presented uris clientType registrationOrigin = true ↔
      presented ∈ uris ∨ ∃ uri ∈ uris, ∃ base candidate,
        LoopbackTwin parse (loopbackHosts clientType registrationOrigin) presented uri base
          candidate := by
  have hnone : ∀ uri base candidate, ¬LoopbackTwin parse [] presented uri base candidate :=
    fun _ _ _ htwin ↦ absurd htwin.loopback List.not_mem_nil
  unfold isRegisteredRedirectUri loopbackHosts
  by_cases hexact : presented ∈ uris
  · simp [hexact]
  · by_cases hcimd : registrationOrigin = some .cimd
    · simp [hexact, hcimd, isCimdRedirectUri, matchesLoopbackPort_iff]
    · by_cases hpublic : clientType = .isPublic
      · simp [hexact, hcimd, hpublic, matchesLoopbackPort_iff]
      · simp [hexact, hcimd, hpublic, hnone]

end RedirectUri

end Odudu.ProtocolOidc
