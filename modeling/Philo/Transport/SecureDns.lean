import Philo.Provider.Endpoint.Policy

/-! The DNS resolver of the production transport, and the addresses that it lets
through for a host of the endpoint policy. -/

namespace Philo

open Result EndpointNetworkPolicy

/-! ## The resolver -/

inductive IpPreference where
  | system
  | ipv4First
  | ipv6First
  deriving DecidableEq

structure SocketAddr where
  ip : IpAddr
  port : UInt16
  deriving DecidableEq

def sortByKey (key : SocketAddr → Bool) (addresses : List SocketAddr) : List SocketAddr :=
  addresses.insertionSort fun first second => key first ≤ key second

def IpPreference.order : IpPreference → List SocketAddr → List SocketAddr
  | .system, addresses => addresses
  | .ipv4First, addresses => sortByKey (fun address => !address.ip.isIpv4) addresses
  | .ipv6First, addresses => sortByKey (fun address => address.ip.isIpv4) addresses

inductive LookupOutcome where
  | timedOut
  | failed
  | found (addresses : List SocketAddr)

inductive SafeDnsSource where
  | unresolved
  deriving DecidableEq

structure SecureDnsResolver where
  preference : IpPreference
  allowedPrivateHost : Option String

namespace SecureDnsResolver

def normalizedHost (name : String) : String := Text.toAsciiLowercase (Text.trimEndMatches name '.')

def forProxy (proxyHost : Option String) (preference : IpPreference) : SecureDnsResolver where
  preference
  allowedPrivateHost := proxyHost.map normalizedHost

def policyFor (resolver : SecureDnsResolver) (host : String) : EndpointNetworkPolicy :=
  if Text.eqIgnoreAsciiCase host "localhost" = true ∨ resolver.allowedPrivateHost = some host then
    .testLoopback
  else .publicHttps

def lookupHost : LookupOutcome → Except SafeDnsSource (List SocketAddr)
  | .found addresses => .ok addresses
  | .timedOut | .failed => .error .unresolved

def resolve (resolver : SecureDnsResolver) (name : String) (lookup : String → LookupOutcome) :
    Except SafeDnsSource (List SocketAddr) := do
  let host := normalizedHost name
  let addresses ← lookupHost (lookup host)
  if resolver.allowedPrivateHost ≠ some host then
    mapError (fun _ => .unresolved)
      ((resolver.policyFor host).validateResolvedAddresses (addresses.map (·.ip)))
  .ok (resolver.preference.order addresses)

end SecureDnsResolver

open SecureDnsResolver

/-! ## Its answers -/

theorem mem_order {preference : IpPreference} {addresses : List SocketAddr}
    {address : SocketAddr} : address ∈ preference.order addresses ↔ address ∈ addresses := by
  cases preference with
  | system => rfl
  | ipv4First => exact (List.perm_insertionSort _ addresses).mem_iff
  | ipv6First => exact (List.perm_insertionSort _ addresses).mem_iff

theorem validateResolvedAddresses_eq_ok {policy : EndpointNetworkPolicy}
    {addresses : List IpAddr} {done : Unit} :
    policy.validateResolvedAddresses addresses = .ok done ↔
      addresses ≠ [] ∧ ∀ address ∈ addresses, policy.mode.acceptsAddress address = true := by
  simp [validateResolvedAddresses]

variable {preference : IpPreference} {name : String}

theorem policyFor_mode {host : String} : ((forProxy none preference).policyFor host).mode =
      if Text.eqIgnoreAsciiCase host "localhost" = true then .testOnly else .production := by
  simp only [policyFor, forProxy, Option.map_none, reduceCtorEq, or_false]
  split <;> rfl

/-- Without a proxy, the addresses are those of one successful lookup, and the mode for
the host accepts them all. -/
theorem resolve_eq_ok {lookup : String → LookupOutcome} {answer : List SocketAddr} :
    (forProxy none preference).resolve name lookup = .ok answer ↔
      ∃ addresses, lookup (normalizedHost name) = .found addresses ∧
        (addresses ≠ [] ∧ ∀ address ∈ addresses,
          ((forProxy none preference).policyFor
            (normalizedHost name)).mode.acceptsAddress address.ip = true) ∧
        preference.order addresses = answer := by
  have noProxy : (forProxy none preference).allowedPrivateHost = none := rfl
  have samePreference : (forProxy none preference).preference = preference := rfl
  have isFound : ∀ {outcome : LookupOutcome} {addresses : List SocketAddr},
      lookupHost outcome = .ok addresses ↔ outcome = .found addresses := by
    intro outcome addresses
    cases outcome <;> simp [lookupHost]
  simp [resolve, noProxy, samePreference, isFound, validateResolvedAddresses_eq_ok]

/-! ## Names that the two checks read differently -/

theorem trimEndMatches_of_not_endsWith (noDot : Text.endsWith name "." = false) :
    Text.trimEndMatches name '.' = name := by
  have kept : name.toList.reverse.dropWhile (· == '.') = name.toList.reverse := by
    cases reversed : name.toList.reverse with
    | nil => rfl
    | cons last before =>
      have notDot : last ≠ '.' := by
        rintro rfl
        have isDotted : name.toList = before.reverse ++ ['.'] := by
          rw [← List.reverse_cons, ← reversed, List.reverse_reverse]
        have ends : Text.endsWith name "." = true := by simp [Text.endsWith, isDotted]
        rw [ends] at noDot
        cases noDot
      exact List.dropWhile_cons_of_neg (by simpa using notDot)
  rw [Text.trimEndMatches, kept, List.reverse_reverse, String.ofList_toList]

def IsDottedLocalhost (name : String) : Prop :=
  Text.endsWith name "." = true ∧
    Text.eqIgnoreAsciiCase (normalizedHost name) "localhost" = true

instance (name : String) : Decidable (IsDottedLocalhost name) := inferInstanceAs (Decidable (_ ∧ _))

/-- The resolver takes a public domain for `localhost` only if it ends in a dot. -/
theorem isDottedLocalhost_iff (isDomain : isDomainName name = true)
    (isPublic : isPublicDomain name = true) : IsDottedLocalhost name ↔
      Text.eqIgnoreAsciiCase (normalizedHost name) "localhost" = true := by
  refine ⟨And.right, fun isLocalhost => ⟨?_, isLocalhost⟩⟩
  by_contra noDot
  have lower : Text.toAsciiLowercase name = name := by
    simp only [isDomainName, Bool.and_eq_true, beq_iff_eq] at isDomain
    exact isDomain.1.1
  have same : normalizedHost name = name := by
    rw [normalizedHost, trimEndMatches_of_not_endsWith (Bool.eq_false_iff.mpr noDot), lower]
  have notLoopback : isLoopback (.domain name) = false := isLoopback_of_isPublicHost isPublic
  rw [same] at isLocalhost
  exact Bool.false_ne_true (notLoopback.symm.trans isLocalhost)

def loopbackAnswer : List SocketAddr := [⟨.v4 ⟨127, 0, 0, 1⟩, 0⟩]

theorem resolve_loopbackAnswer (isLocalhost :
      Text.eqIgnoreAsciiCase (normalizedHost name) "localhost" = true) :
    (forProxy none .system).resolve name (fun _ => .found loopbackAnswer) =
      .ok loopbackAnswer := by
  refine resolve_eq_ok.mpr ⟨loopbackAnswer, rfl, ⟨by decide, ?_⟩, rfl⟩
  rw [policyFor_mode, if_pos isLocalhost]
  decide

/-- A host that the production policy accepts resolves to public addresses only, unless
it is a dotted spelling of `localhost`. -/
theorem resolved_isPublic_iff (url : Url)
    (accepted : publicHttps.validate url = .ok ()) (name : String)
    (isDomain : url.host = some (.domain name)) :
    (∀ preference lookup answer,
      (forProxy none preference).resolve name lookup = .ok answer →
        ∀ address ∈ answer, address.ip.isPublic = true) ↔ ¬ IsDottedLocalhost name := by
  have validated : (forMode .production).validate url = .ok () := accepted
  rcases validate_forMode_eq_ok.mp validated with ⟨_, host, hasHost, admitted⟩
  have isHost : host = .domain name := Option.some.inj (hasHost.symm.trans isDomain)
  rw [isHost] at admitted
  have special : isSpecialScheme url.scheme = true := isSpecialScheme_of_admits admitted
  simp only [EndpointMode.admits, Bool.and_eq_true] at admitted
  rw [isDottedLocalhost_iff (url.domainParsed name isDomain special) admitted.2]
  constructor
  · intro onlyPublic isLocalhost
    have loopback := onlyPublic .system _ _ (resolve_loopbackAnswer isLocalhost) _
      List.mem_cons_self
    exact absurd loopback (by decide)
  · intro notLocalhost preference lookup answer resolved address member
    rcases resolve_eq_ok.mp resolved with ⟨addresses, _, ⟨_, allAccepted⟩, rfl⟩
    rw [policyFor_mode, if_neg notLocalhost] at allAccepted
    exact allAccepted address (mem_order.mp member)

def dottedLocalhostUrl : Url := .https "localhost." "/v1/chat/completions" (by decide)

def openAiUrl : Url := .https "api.openai.com." "/v1/chat/completions" (by decide)

theorem openAi_resolves_public :
    publicHttps.validate openAiUrl = .ok () ∧
      ∀ preference lookup answer,
        (forProxy none preference).resolve "api.openai.com." lookup =
            .ok answer →
          ∀ address ∈ answer, address.ip.isPublic = true :=
  ⟨by decide, (resolved_isPublic_iff openAiUrl (by decide) "api.openai.com." rfl).mpr (by decide)⟩

/-- The production policy accepts `https://localhost.`, and the resolver then insists on
loopback addresses. -/
theorem dottedLocalhost_resolves_loopback :
    publicHttps.validate dottedLocalhostUrl = .ok () ∧
      dottedLocalhostUrl.host = some (.domain "localhost.") ∧
      (forProxy none .system).resolve "localhost."
          (fun _ => .found loopbackAnswer) = .ok loopbackAnswer ∧
      ∃ address ∈ loopbackAnswer, address.ip.isPublic = false :=
  ⟨by decide, rfl, rfl, _, List.mem_cons_self, by decide⟩

end Philo
