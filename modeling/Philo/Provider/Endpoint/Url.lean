import Philo.Foundation.IpText
import Philo.Domain.LlmError

/-! URLs as the `url` crate holds them after parsing, and their origins. -/

namespace Philo

open Result

/-- The last label is a number, so that the host parser of a special scheme reads
the host as an IPv4 address or refuses it. One trailing dot is ignored. -/
def endsInNumber (name : String) : Bool :=
  let isNumber (label : List Char) := !label.isEmpty && label.all Char.isDigit
  match (name.toList.splitOn '.').reverse with
  | [] :: last :: _ => isNumber last
  | last :: _ => isNumber last
  | [] => false

/-- What the crate guarantees for a domain of a special scheme: it is in lower case,
and not what an address looks like. -/
def isDomainName (name : String) : Bool :=
  Text.toAsciiLowercase name == name && !name.toList.contains ':' && !endsInNumber name

inductive Host where
  | domain (name : String)
  | ipv4 (address : Ipv4Addr)
  | ipv6 (address : Ipv6Addr)
  deriving DecidableEq

/-- `SchemeType::is_special`, without `file`, which has no origin here. -/
def isSpecialScheme (scheme : String) : Bool :=
  ["http", "https", "ws", "wss", "ftp"].contains scheme

structure Url where
  scheme : String
  username : String
  password : Option String
  host : Option Host
  port : Option UInt16
  path : String
  query : Option String
  fragment : Option String
  schemeLower : Text.toAsciiLowercase scheme = scheme
  domainParsed : ∀ name, host = some (.domain name) → isSpecialScheme scheme = true →
    isDomainName name = true
  deriving DecidableEq

namespace Url

def portOrKnownDefault (url : Url) : Option UInt16 :=
  url.port.or (match url.scheme with
    | "http" | "ws" => some 80
    | "https" | "wss" => some 443
    | "ftp" => some 21
    | _ => none)

def https (domain path : String) (parsed : isDomainName domain = true) : Url where
  scheme := "https"
  username := ""
  password := none
  host := some (.domain domain)
  port := none
  path
  query := none
  fragment := none
  schemeLower := by decide
  domainParsed name isName _ := by
    cases isName
    exact parsed

def openAiChat : Url := https "api.openai.com" "/v1/chat/completions" (by decide)
def sample : Url := https "api.example.com" "/v1" (by decide)

end Url

def Host.toString : Host → String
  | .domain name => Text.toAsciiLowercase name
  | .ipv4 address => address.text
  | .ipv6 address => address.text

def configurationError (message : String) : LlmError := .configuration message

structure Origin where
  scheme : String
  host : String
  port : UInt16
  deriving DecidableEq

namespace Origin

def new (scheme host : String) (port : UInt16) : Origin :=
  ⟨Text.toAsciiLowercase scheme, Text.toAsciiLowercase host, port⟩

def fromUrl (url : Url) : Except LlmError Origin := do
  let host ← okOr url.host (configurationError "endpoint must include a host")
  let port ← okOr url.portOrKnownDefault
    (configurationError "endpoint scheme has no effective port")
  .ok ⟨Text.toAsciiLowercase url.scheme, host.toString, port⟩

theorem fromUrl_eq_ok {url : Url} {origin : Origin} :
    fromUrl url = .ok origin ↔ ∃ host port, url.host = some host ∧
      url.portOrKnownDefault = some port ∧ origin = ⟨url.scheme, host.toString, port⟩ := by
  simp only [fromUrl, bind_eq_ok, okOr_eq_ok, Except.ok.injEq, url.schemeLower]
  constructor
  · rintro ⟨host, hasHost, port, hasPort, rfl⟩
    exact ⟨host, port, hasHost, hasPort, rfl⟩
  · rintro ⟨host, port, hasHost, hasPort, rfl⟩
    exact ⟨host, hasHost, port, hasPort, rfl⟩

end Origin

/-! ## The text of a host determines the host -/

theorem endsInNumber_text (address : Ipv4Addr) : endsInNumber address.text = true := by
  have split : address.text.toList.splitOn '.' = address.words := by
    rw [Ipv4Addr.toList_text]
    exact List.splitOn_intercalate '.' (Ipv4Addr.not_mem_words (by decide))
      (by simp [Ipv4Addr.words])
  have digits : (numeral 10 address.d.toNat).all Char.isDigit = true := by
    rw [List.all_eq_true]
    intro character member
    rcases mem_numeral (by decide) member with ⟨digit, lt, rfl⟩
    exact isDigit_digitChar lt
  cases last : numeral 10 address.d.toNat with
  | nil => exact absurd last numeral_ne_nil
  | cons first rest =>
    rw [last] at digits
    simp only [endsInNumber, split, Ipv4Addr.words, last, List.reverse_cons, List.reverse_nil,
      List.nil_append, List.cons_append]
    simpa using digits

section IsDomainName

variable {name : String} (isDomain : isDomainName name = true)

include isDomain

theorem Host.toString_domain : (Host.domain name).toString = name := by
  simp only [isDomainName, Bool.and_eq_true, beq_iff_eq] at isDomain
  exact isDomain.1.1

theorem ne_text_of_isDomainName (address : Ipv4Addr) : name ≠ address.text := by
  rintro rfl
  simp [isDomainName, endsInNumber_text] at isDomain

theorem ne_ipv6Text_of_isDomainName (address : Ipv6Addr) : name ≠ address.text := by
  rintro rfl
  simp [isDomainName, address.colon_mem_text] at isDomain

end IsDomainName

theorem Ipv4Addr.text_ne_ipv6Text (first : Ipv4Addr) (second : Ipv6Addr) :
    first.text ≠ second.text := by
  intro same
  have colon := second.colon_mem_text
  rw [← same] at colon
  exact first.colon_not_mem_text colon

/-- The host is an address, or a domain that the crate would parse to itself. -/
def Host.IsParsed (host : Host) : Prop := ∀ name, host = .domain name → isDomainName name = true

theorem Host.toString_injective {first second : Host} (firstParsed : first.IsParsed)
    (secondParsed : second.IsParsed) (same : first.toString = second.toString) :
    first = second := by
  cases first with
  | domain name =>
    have isDomain := firstParsed name rfl
    rw [Host.toString_domain isDomain] at same
    cases second with
    | domain other =>
      rw [Host.toString_domain (secondParsed other rfl)] at same
      rw [same]
    | ipv4 address => exact absurd same (ne_text_of_isDomainName isDomain address)
    | ipv6 address => exact absurd same (ne_ipv6Text_of_isDomainName isDomain address)
  | ipv4 address =>
    cases second with
    | domain other =>
      have isDomain := secondParsed other rfl
      rw [Host.toString_domain isDomain] at same
      exact absurd same.symm (ne_text_of_isDomainName isDomain address)
    | ipv4 other => rw [Ipv4Addr.text_injective same]
    | ipv6 other => exact absurd same (address.text_ne_ipv6Text other)
  | ipv6 address =>
    cases second with
    | domain other =>
      have isDomain := secondParsed other rfl
      rw [Host.toString_domain isDomain] at same
      exact absurd same.symm (ne_ipv6Text_of_isDomainName isDomain address)
    | ipv4 other => exact absurd same.symm (other.text_ne_ipv6Text address)
    | ipv6 other => rw [Ipv6Addr.text_injective same]

end Philo
