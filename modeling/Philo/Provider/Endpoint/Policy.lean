import Mathlib.Data.List.Sort
import Philo.Provider.Endpoint.Url

/-! Which network targets an endpoint may have. -/

namespace Philo

open Result

inductive EndpointMode where
  | production
  | testOnly
  deriving DecidableEq

def requiredEndpointScheme : String := "https"

/-! ## Addresses and hosts -/

def isIpv4Range (address network : Ipv4Addr) (bits : UInt32) : Bool :=
  let mask : UInt32 := 0xffffffff <<< (32 - bits)
  address.toBits &&& mask == network.toBits &&& mask

def isPublicIpv4 (address : Ipv4Addr) : Bool :=
  !(address.isPrivate || address.isLoopback || address.isLinkLocal || address.isUnspecified ||
    address.isMulticast || address == .broadcast ||
    isIpv4Range address ⟨100, 64, 0, 0⟩ 10 || isIpv4Range address ⟨192, 0, 0, 0⟩ 24 ||
    isIpv4Range address ⟨198, 18, 0, 0⟩ 15 || isIpv4Range address ⟨240, 0, 0, 0⟩ 4)

def isPublicIpv6 (address : Ipv6Addr) : Bool :=
  match address.toIpv4Mapped with
  | some mapped => isPublicIpv4 mapped
  | none =>
    !(address.isLoopback || address.isUnspecified || address.isMulticast ||
      address.a &&& 0xfe00 == 0xfc00 || address.a &&& 0xffc0 == 0xfe80 ||
      (address.a == 0x2001 && address.b == 0x0db8))

def IpAddr.isPublic : IpAddr → Bool
  | .v4 address => isPublicIpv4 address
  | .v6 address => isPublicIpv6 address

def isLocalDomain (name : String) : Bool :=
  match Text.rsplitOnce name '.' with
  | some (_, suffix) => Text.eqIgnoreAsciiCase suffix "local"
  | none => false

def isPublicDomain (name : String) : Bool :=
  let lower := Text.toAsciiLowercase name
  lower != "localhost" && !Text.endsWith lower ".localhost" && !isLocalDomain lower &&
    !Text.startsWith lower "xn--" && !Text.contains lower ".xn--"

def isPublicHost : Host → Bool
  | .domain name => isPublicDomain name
  | .ipv4 address => isPublicIpv4 address
  | .ipv6 address => isPublicIpv6 address

def validatePublicHost (host : Host) : Except LlmError Unit :=
  reject (isPublicHost host = false) (configurationError
    "production endpoint must not target private, loopback, link-local, or IDN hosts")

def isLoopback : Host → Bool
  | .domain name => Text.eqIgnoreAsciiCase name "localhost"
  | .ipv4 address => address.isLoopback
  | .ipv6 address => address.isLoopback

def isLoopbackUrl (url : Url) : Bool := url.host.any isLoopback

def EndpointMode.acceptsAddress : EndpointMode → IpAddr → Bool
  | .production => IpAddr.isPublic
  | .testOnly => IpAddr.isLoopback

/-! ## The policy -/

structure EndpointNetworkPolicy where
  mode : EndpointMode
  allowedHosts : Std.TreeSet String

def validateCommon (url : Url) : Except LlmError Unit := do
  reject (url.username ≠ "" ∨ url.password.isSome = true)
    (configurationError "endpoint userinfo is forbidden")
  reject (url.fragment.isSome = true) (configurationError "endpoint fragment is forbidden")
  reject (url.scheme ≠ "http" ∧ url.scheme ≠ "https")
    (configurationError "endpoint scheme must be HTTP(S)")
  reject (url.host = none) (configurationError "endpoint must include a host")

namespace EndpointNetworkPolicy

def publicHttps : EndpointNetworkPolicy := ⟨.production, ∅⟩

def testLoopback : EndpointNetworkPolicy := ⟨.testOnly, ∅⟩

def forMode : EndpointMode → EndpointNetworkPolicy
  | .production => publicHttps
  | .testOnly => testLoopback

def withAllowedHost (policy : EndpointNetworkPolicy) (host : String) :
    Except LlmError EndpointNetworkPolicy := do
  let host := Text.toAsciiLowercase host
  reject (host = "" ∨ host.toList.all (·.toNat < 128) = false ∨
      host.toList.any ['/', ':', '@'].contains = true)
    (configurationError "invalid endpoint allowlist host")
  .ok { policy with allowedHosts := policy.allowedHosts.insert host }

def validateMode (mode : EndpointMode) (url : Url) (host : Host) : Except LlmError Unit :=
  match mode with
  | .production => do
    reject (url.scheme ≠ requiredEndpointScheme)
      (configurationError "production endpoint requires HTTPS")
    validatePublicHost host
  | .testOnly =>
    reject ((url.scheme ≠ "http" ∧ url.scheme ≠ "https") ∨ isLoopback host = false)
      (configurationError "test endpoint must use HTTP(S) on a loopback host")

def validate (policy : EndpointNetworkPolicy) (url : Url) : Except LlmError Unit := do
  validateCommon url
  let host ← okOr url.host (configurationError "endpoint must include a host")
  validateMode policy.mode url host
  reject (policy.allowedHosts.isEmpty = false ∧
      policy.allowedHosts.contains host.toString = false)
    (configurationError "endpoint host is not allowlisted")

def validateResolvedAddresses (policy : EndpointNetworkPolicy) (addresses : List IpAddr) :
    Except LlmError Unit := do
  reject (addresses = []) (configurationError "DNS resolution returned no addresses")
  reject (addresses.all policy.mode.acceptsAddress = false)
    (configurationError "DNS resolution included a forbidden network address")

end EndpointNetworkPolicy

open EndpointNetworkPolicy

/-! ## What the policy accepts -/

structure Url.IsPlain (url : Url) : Prop where
  username : url.username = ""
  password : url.password = none
  fragment : url.fragment = none

theorem validateCommon_eq_ok {url : Url} {done : Unit} : validateCommon url = .ok done ↔
    url.IsPlain ∧ (url.scheme = "http" ∨ url.scheme = "https") ∧ url.host ≠ none := by
  simp only [validateCommon, bind_eq_ok, reject_eq_ok, exists_const]
  constructor
  · rintro ⟨userinfo, fragment, scheme, host⟩
    push Not at userinfo scheme
    refine ⟨⟨userinfo.1, by simpa using userinfo.2, by simpa using fragment⟩, ?_, host⟩
    by_cases isHttp : url.scheme = "http"
    · exact .inl isHttp
    · exact .inr (scheme isHttp)
  · rintro ⟨⟨username, password, fragment⟩, scheme, host⟩
    refine ⟨by simp [username, password], by simp [fragment], ?_, host⟩
    rintro ⟨notHttp, notHttps⟩
    exact scheme.elim notHttp notHttps

def EndpointMode.admits : EndpointMode → String → Host → Bool
  | .production, scheme, host => scheme == "https" && isPublicHost host
  | .testOnly, scheme, host => (scheme == "http" || scheme == "https") && isLoopback host

theorem validateMode_eq_ok {mode : EndpointMode} {url : Url} {host : Host} {done : Unit} :
    validateMode mode url host = .ok done ↔
      mode.admits url.scheme host = true := by
  cases mode with
  | production =>
    simp only [validateMode, validatePublicHost, bind_eq_ok, reject_eq_ok, exists_const]
    simp [EndpointMode.admits, requiredEndpointScheme]
  | testOnly =>
    simp only [validateMode, EndpointMode.admits, reject_eq_ok,
      Bool.and_eq_true, Bool.or_eq_true, beq_iff_eq]
    grind

theorem validate_forMode_eq_ok {mode : EndpointMode} {url : Url} {done : Unit} :
    (forMode mode).validate url = .ok done ↔
      url.IsPlain ∧ ∃ host, url.host = some host ∧ mode.admits url.scheme host = true := by
  have noAllowlist : (forMode mode).allowedHosts.isEmpty = true := by cases mode <;> rfl
  have sameMode : (forMode mode).mode = mode := by cases mode <;> rfl
  simp only [validate, bind_eq_ok, okOr_eq_ok, reject_eq_ok, noAllowlist,
    sameMode, validateCommon_eq_ok, validateMode_eq_ok, exists_const]
  constructor
  · rintro ⟨⟨plain, _, _⟩, host, hasHost, admitted, _⟩
    exact ⟨plain, host, hasHost, admitted⟩
  · rintro ⟨plain, host, hasHost, admitted⟩
    have scheme : url.scheme = "http" ∨ url.scheme = "https" := by
      cases mode with
      | production =>
        simp only [EndpointMode.admits, Bool.and_eq_true, beq_iff_eq] at admitted
        exact .inr admitted.1
      | testOnly =>
        simp only [EndpointMode.admits, Bool.and_eq_true, Bool.or_eq_true, beq_iff_eq] at admitted
        exact admitted.1
    exact ⟨⟨plain, scheme, by simp [hasHost]⟩, host, hasHost, admitted, by simp⟩

theorem isSpecialScheme_of_admits {mode : EndpointMode} {scheme : String} {host : Host}
    (admitted : mode.admits scheme host = true) : isSpecialScheme scheme = true := by
  have isHttp : scheme = "http" ∨ scheme = "https" := by
    cases mode <;>
      simp only [EndpointMode.admits, Bool.and_eq_true, Bool.or_eq_true, beq_iff_eq] at admitted
    · exact .inr admitted.1
    · exact admitted.1
  rcases isHttp with rfl | rfl <;> decide

theorem isLoopback_of_isPublicHost {host : Host} (isPublic : isPublicHost host = true) :
    isLoopback host = false := by
  cases host with
  | domain name =>
    simp only [isPublicHost, isPublicDomain, Bool.and_eq_true, bne_iff_ne] at isPublic
    have notLocalhost : Text.toAsciiLowercase name ≠ Text.toAsciiLowercase "localhost" :=
      isPublic.1.1.1.1
    simpa [isLoopback, Text.eqIgnoreAsciiCase] using notLocalhost
  | ipv4 address =>
    simp only [isPublicHost, isPublicIpv4, Bool.not_eq_true', Bool.or_eq_false_iff] at isPublic
    simp [isLoopback, isPublic]
  | ipv6 address =>
    by_contra loopback
    have isOne : address = ⟨0, 0, 0, 0, 0, 0, 0, 1⟩ := by
      simpa [isLoopback, Ipv6Addr.isLoopback] using loopback
    rw [isOne] at isPublic
    exact absurd isPublic (by decide)

/-! ## Embedded IPv4 addresses -/

/-- The ways in which an IPv6 address stands for an IPv4 address: `::ffff:0:0/96`, `::/96`,
`2002::/16` and `64:ff9b::/96`. -/
inductive Ipv4Embedding where
  | mapped
  | compatible
  | sixToFour
  | nat64
  deriving DecidableEq

def Ipv4Addr.ofSegments (high low : UInt16) : Ipv4Addr :=
  ⟨(high >>> 8).toUInt8, high.toUInt8, (low >>> 8).toUInt8, low.toUInt8⟩

def Ipv4Embedding.embedded? : Ipv4Embedding → Ipv6Addr → Option Ipv4Addr
  | .mapped, address => address.toIpv4Mapped
  | .compatible, address =>
    if address.segments.take 6 = [0, 0, 0, 0, 0, 0] then
      some (.ofSegments address.g address.h)
    else none
  | .sixToFour, address =>
    if address.a = 0x2002 then some (.ofSegments address.b address.c) else none
  | .nat64, address =>
    if address.segments.take 6 = [0x64, 0xff9b, 0, 0, 0, 0] then
      some (.ofSegments address.g address.h)
    else none

/-- If the address is accepted, then so is every IPv4 address that it embeds. -/
def Ipv6Addr.EmbedsPublic (address : Ipv6Addr) : Prop :=
  isPublicIpv6 address = true → ∀ (form : Ipv4Embedding) (embedded : Ipv4Addr),
    form.embedded? address = some embedded → isPublicIpv4 embedded = true

/-- `::127.0.0.1`, `2002:7f00:1::` and `64:ff9b::127.0.0.1` are accepted. -/
theorem embeddedLoopback_accepted :
    Ipv4Embedding.compatible.embedded? ⟨0, 0, 0, 0, 0, 0, 0x7f00, 1⟩ = some ⟨127, 0, 0, 1⟩ ∧
      Ipv4Embedding.sixToFour.embedded? ⟨0x2002, 0x7f00, 1, 0, 0, 0, 0, 0⟩ =
        some ⟨127, 0, 0, 1⟩ ∧
      Ipv4Embedding.nat64.embedded? ⟨0x64, 0xff9b, 0, 0, 0, 0, 0x7f00, 1⟩ =
        some ⟨127, 0, 0, 1⟩ ∧
      isPublicIpv6 ⟨0, 0, 0, 0, 0, 0, 0x7f00, 1⟩ = true ∧
      isPublicIpv6 ⟨0x2002, 0x7f00, 1, 0, 0, 0, 0, 0⟩ = true ∧
      isPublicIpv6 ⟨0x64, 0xff9b, 0, 0, 0, 0, 0x7f00, 1⟩ = true ∧
      isPublicIpv4 ⟨127, 0, 0, 1⟩ = false := by decide

theorem isPublicIpv4_of_mapped {address : Ipv6Addr} {embedded : Ipv4Addr}
    (isMapped : address.toIpv4Mapped = some embedded)
    (accepted : isPublicIpv6 address = true) : isPublicIpv4 embedded = true := by
  rw [isPublicIpv6, isMapped] at accepted
  exact accepted

/-- No class of refused addresses begins like the prefixes of the other forms. -/
theorem isPublicIpv6_of_start {address : Ipv6Addr} (unmapped : address.toIpv4Mapped = none)
    (start : address.a ∈ [0, 0x2002, 0x64]) :
    isPublicIpv6 address = true ∨ address.isUnspecified = true ∨ address.isLoopback = true := by
  have classes : (address.a &&& 0xff00 == 0xff00) = false ∧
      (address.a &&& 0xfe00 == 0xfc00) = false ∧ (address.a &&& 0xffc0 == 0xfe80) = false ∧
      (address.a == 0x2001) = false := by
    simp only [List.mem_cons, List.not_mem_nil, or_false] at start
    rcases start with first | first | first <;> rw [first] <;> decide
  rcases classes with ⟨unicast, global, routed, documented⟩
  rw [isPublicIpv6, unmapped, Ipv6Addr.isMulticast, unicast, global, routed, documented]
  cases address.isLoopback <;> cases address.isUnspecified <;> simp

/-- The other forms are accepted whatever they embed, except for `::` and `::1`. -/
theorem isPublicIpv6_of_unmapped {form : Ipv4Embedding} (unmapped : form ≠ .mapped)
    {address : Ipv6Addr} {embedded : Ipv4Addr} (embeds : form.embedded? address = some embedded) :
    isPublicIpv6 address = true ∨ address.isUnspecified = true ∨ address.isLoopback = true := by
  rcases address with ⟨a, b, c, d, e, f, g, h⟩
  cases form with
  | mapped => exact absurd rfl unmapped
  | compatible | nat64 =>
    simp only [Ipv4Embedding.embedded?, Ipv6Addr.segments, Option.ite_none_right_eq_some,
      List.take_succ_cons, List.take_zero, List.cons.injEq, and_true] at embeds
    rcases embeds.1 with ⟨rfl, rfl, rfl, rfl, rfl, rfl⟩
    exact isPublicIpv6_of_start rfl (by simp)
  | sixToFour =>
    simp only [Ipv4Embedding.embedded?, Option.ite_none_right_eq_some] at embeds
    rcases embeds.1 with rfl
    exact isPublicIpv6_of_start rfl (by simp)

/-- An address keeps the rule exactly if what it embeds in the other forms is public, and
`::` keeps it because it is refused. `::1` embeds `0.0.0.1`, which is accepted. -/
theorem Ipv6Addr.embedsPublic_iff (address : Ipv6Addr) :
    address.EmbedsPublic ↔ address.isUnspecified = true ∨
      ∀ (form : Ipv4Embedding) (embedded : Ipv4Addr), form ≠ .mapped →
        form.embedded? address = some embedded → isPublicIpv4 embedded = true := by
  constructor
  · intro rule
    by_cases unspecified : address.isUnspecified = true
    · exact .inl unspecified
    · apply Or.inr
      intro form embedded unmapped embeds
      rcases isPublicIpv6_of_unmapped unmapped embeds with accepted | refused | loopback
      · exact rule accepted form embedded embeds
      · exact absurd refused unspecified
      · rw [Ipv6Addr.isLoopback, beq_iff_eq] at loopback
        subst loopback
        have isOne : embedded = ⟨0, 0, 0, 1⟩ := by
          cases form <;> cases embeds
          rfl
        subst isOne
        decide
  · rintro (unspecified | embedsPublic) accepted form embedded embeds
    · rw [isUnspecified, beq_iff_eq] at unspecified
      subst unspecified
      exact absurd accepted (by decide)
    · by_cases isMapped : form = .mapped
      · subst isMapped
        exact isPublicIpv4_of_mapped embeds accepted
      · exact embedsPublic form embedded isMapped embeds

end Philo
