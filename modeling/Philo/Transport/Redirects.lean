import Philo.Provider.Endpoint.Audience

/-! The redirect closure of the production transport, beside the hop validator of the
endpoint policy. -/

namespace Philo

open Result RedirectPolicy

/-! ## The closure -/

def maxRedirects : Nat := 5

inductive RedirectDecision where
  | follow
  | error (message : String)
  deriving DecidableEq

def Url.hasSafeShape (url : Url) : Bool :=
  url.username == "" && url.password.isNone && url.query.isNone && url.fragment.isNone

def sameOriginPolicy (previous : List Url) (nextUrl : Url) : RedirectDecision :=
  if maxRedirects < previous.length then .error "redirect limit exceeded"
  else
    match previous with
    | [] => .error "redirect has no initial URL"
    | initial :: _ =>
      match Origin.fromUrl initial with
      | .error _ => .error "cross-origin redirect rejected"
      | .ok initial =>
        match Origin.fromUrl nextUrl with
        | .error _ => .error "cross-origin redirect rejected"
        | .ok next =>
          if nextUrl.hasSafeShape = true ∧ initial = next ∧
              ¬ (initial.scheme = "https" ∧ next.scheme ≠ "https") then .follow
          else .error "cross-origin redirect rejected"

/-- The targets that are followed. The client asks the closure once for each hop, with
all URLs before it, and stops at the first error. -/
def followed (previous : List Url) : List Url → List Url
  | [] => []
  | target :: rest =>
    match sameOriginPolicy previous target with
    | .follow => target :: followed (previous ++ [target]) rest
    | .error _ => []

structure IsSameOriginTarget (initial target : Url) : Prop where
  shape : target.hasSafeShape = true
  sameOrigin : ∃ origin, Origin.fromUrl initial = .ok origin ∧ Origin.fromUrl target = .ok origin

theorem sameOriginPolicy_eq_follow {initial target : Url} {later : List Url} :
    sameOriginPolicy (initial :: later) target = .follow ↔
      later.length < maxRedirects ∧ IsSameOriginTarget initial target := by
  unfold sameOriginPolicy
  split
  case isTrue exceeded =>
    have notBelow : ¬ later.length < maxRedirects := by
      simp only [List.length_cons] at exceeded
      omega
    simp [notBelow]
  case isFalse within =>
    have below : later.length < maxRedirects := by
      simp only [List.length_cons] at within
      omega
    simp only [below, true_and]
    constructor
    · intro follows
      split at follows
      · cases follows
      · rename_i first hasFirst
        split at follows
        · cases follows
        · rename_i second hasSecond
          split at follows
          · rename_i safe
            refine ⟨safe.1, first, hasFirst, ?_⟩
            rw [hasSecond, safe.2.1]
          · cases follows
    · rintro ⟨shape, origin, hasFirst, hasSecond⟩
      simp [hasFirst, hasSecond, shape]

/-! ## Chains of redirects -/

theorem length_followed_le (targets : List Url) (initial : Url) (later : List Url) :
    (followed (initial :: later) targets).length ≤ maxRedirects - later.length := by
  induction targets generalizing later with
  | nil => simp [followed]
  | cons target rest induction =>
    unfold followed
    split
    · rename_i follows
      have below := (sameOriginPolicy_eq_follow.mp follows).1
      have shorter := induction (later ++ [target])
      simp only [List.length_append, List.length_cons, List.length_nil,
        List.cons_append] at shorter ⊢
      omega
    · simp

theorem mem_followed {targets : List Url} {initial target : Url} {later : List Url}
    (member : target ∈ followed (initial :: later) targets) :
    IsSameOriginTarget initial target := by
  induction targets generalizing later with
  | nil => simp [followed] at member
  | cons head rest induction =>
    unfold followed at member
    split at member
    · rename_i follows
      rcases List.mem_cons.mp member with rfl | inRest
      · exact (sameOriginPolicy_eq_follow.mp follows).2
      · exact induction inRest
    · simp at member

/-! ## The two implementations compared -/

/-- Redirects of an endpoint are checked in the mode that accepts the endpoint. -/
theorem hopMode_admits (endpoint : ResolvedEndpoint) : ∃ host, endpoint.url.host = some host ∧
      (hopMode endpoint).admits endpoint.url.scheme host = true := by
  rcases endpoint.validated with ⟨mode, accepted⟩
  rcases validate_forMode_eq_ok.mp accepted with ⟨_, host, hasHost, admitted⟩
  refine ⟨host, hasHost, ?_⟩
  rcases Origin.fromUrl_eq_ok.mp endpoint.originOf with ⟨_, _, _, _, isOrigin⟩
  have sameScheme : endpoint.origin.scheme = endpoint.url.scheme := by rw [isOrigin]
  cases mode with
  | production =>
    simp only [EndpointMode.admits, Bool.and_eq_true, beq_iff_eq] at admitted
    have isProduction : hopMode endpoint = .production := by
      simp [hopMode, sameScheme, admitted.1, isLoopbackUrl, hasHost,
        isLoopback_of_isPublicHost admitted.2]
    simp [isProduction, EndpointMode.admits, admitted]
  | testOnly =>
    have loopback : isLoopback host = true := by
      simp only [EndpointMode.admits, Bool.and_eq_true] at admitted
      exact admitted.2
    have isTest : hopMode endpoint = .testOnly := by
      simp [hopMode, isLoopbackUrl, hasHost, loopback]
    rw [isTest]
    exact admitted

/-- Two URLs of one origin agree in scheme and host, if the parser has checked the
hosts. -/
theorem IsSameOriginTarget.scheme_host {initial target : Url}
    (same : IsSameOriginTarget initial target) (special : isSpecialScheme initial.scheme = true) :
    target.scheme = initial.scheme ∧ target.host = initial.host := by
  rcases same.sameOrigin with ⟨origin, ofInitial, ofTarget⟩
  rcases Origin.fromUrl_eq_ok.mp ofInitial with ⟨first, _, hasFirst, _, rfl⟩
  rcases Origin.fromUrl_eq_ok.mp ofTarget with ⟨second, _, hasSecond, _, sameOrigin⟩
  have sameScheme : initial.scheme = target.scheme := congrArg Origin.scheme sameOrigin
  have sameText : first.toString = second.toString := congrArg Origin.host sameOrigin
  have firstParsed : first.IsParsed := fun name isName =>
    initial.domainParsed name (by rw [hasFirst, isName]) special
  have secondParsed : second.IsParsed := fun name isName =>
    target.domainParsed name (by rw [hasSecond, isName]) (sameScheme ▸ special)
  refine ⟨sameScheme.symm, ?_⟩
  rw [hasFirst, hasSecond, Host.toString_injective firstParsed secondParsed sameText]

/-- The network policy has nothing to say against a target of the same origin. -/
theorem IsSameOriginTarget.validated {endpoint : ResolvedEndpoint} {target : Url}
    (same : IsSameOriginTarget endpoint.url target) :
    (EndpointNetworkPolicy.forMode (hopMode endpoint)).validate target =
      .ok () := by
  rcases hopMode_admits endpoint with ⟨host, hasHost, admitted⟩
  rcases same.scheme_host (isSpecialScheme_of_admits admitted) with ⟨sameScheme, sameHost⟩
  have shape := same.shape
  simp only [Url.hasSafeShape, Bool.and_eq_true, beq_iff_eq, Option.isNone_iff_eq_none] at shape
  refine validate_forMode_eq_ok.mpr ⟨⟨shape.1.1.1, shape.1.1.2, shape.2⟩, host, ?_, ?_⟩
  · rw [sameHost, hasHost]
  · rw [sameScheme]
    exact admitted

/-- For a target that the closure follows, the hop validator only adds the path check. -/
theorem IsSameOriginTarget.validateHop_succeeds {endpoint : ResolvedEndpoint} {target : Url}
    (same : IsSameOriginTarget endpoint.url target) {binding : CredentialBinding}
    (valid : binding.validate endpoint = .ok ()) :
    Succeeds (RedirectPolicy.sameOrigin.validateHop endpoint target binding) ↔
      binding.admitsPath target.path = true := by
  rcases same.sameOrigin with ⟨origin, ofSource, ofTarget⟩
  have isOrigin : endpoint.origin = origin := Except.ok.inj (endpoint.originOf.symm.trans ofSource)
  have noQuery : target.query = none := by
    have shape := same.shape
    simp only [Url.hasSafeShape, Bool.and_eq_true, Option.isNone_iff_eq_none] at shape
    exact shape.1.2
  have sameOrigin := (CredentialBinding.validate_eq_ok.mp valid).1
  have hop := ResolvedEndpoint.validatedNew_of_accepted .default same.validated ofTarget
  simp only [Succeeds, RedirectPolicy.validateHop, RedirectPolicy.validateInner, hop, noQuery,
    bind_eq_ok, reject_eq_ok, exists_const, Option.elim_some]
  simp [CredentialBinding.validate_eq_ok, sameOrigin, isOrigin]

/-- At most `MAX_REDIRECTS` redirects are followed, and one that is followed passes the
hop validator exactly when the binding admits its path. -/
theorem followed_validateHop_iff (endpoint : ResolvedEndpoint) (binding : CredentialBinding)
    (valid : binding.validate endpoint = .ok ()) (targets : List Url) :
    (followed [endpoint.url] targets).length ≤ maxRedirects ∧
      ∀ target ∈ followed [endpoint.url] targets,
        (Succeeds (RedirectPolicy.sameOrigin.validateHop endpoint target binding) ↔
          binding.admitsPath target.path = true) :=
  ⟨length_followed_le targets endpoint.url [], fun _ member =>
    (mem_followed member).validateHop_succeeds valid⟩

/-! ## A redirect out of the path of a binding -/

def zaiChatEndpoint : ResolvedEndpoint where
  url := .https "api.z.ai" "/api/paas/v4/chat/completions" (by decide)
  origin := .new "https" "api.z.ai" 443
  diagnostics := .default
  originOf := by decide
  validated := ⟨.production, by decide⟩

def zaiCodingUrl : Url := .https "api.z.ai" "/api/coding/paas/v4/chat/completions" (by decide)

def zaiModelsUrl : Url := .https "api.z.ai" "/api/paas/v4/models" (by decide)

theorem followed_zaiModels :
    (CredentialBinding.ofAudience .zaiStandard).validate zaiChatEndpoint = .ok () ∧
      followed [zaiChatEndpoint.url] [zaiModelsUrl] = [zaiModelsUrl] ∧
      Succeeds (sameOrigin.validateHop zaiChatEndpoint zaiModelsUrl
        (.ofAudience .zaiStandard)) :=
  ⟨by decide, by decide,
    ((followed_validateHop_iff zaiChatEndpoint (.ofAudience .zaiStandard) (by decide)
      [zaiModelsUrl]).2 zaiModelsUrl (by decide)).mpr (by decide)⟩

/-- The credential of the standard product follows a redirect to the coding product,
which the hop validator refuses. -/
theorem followed_zaiCoding :
    (CredentialBinding.ofAudience .zaiStandard).validate zaiChatEndpoint = .ok () ∧
      followed [zaiChatEndpoint.url] [zaiCodingUrl] = [zaiCodingUrl] ∧
      sameOrigin.validateHop zaiChatEndpoint zaiCodingUrl
          (.ofAudience .zaiStandard) =
        .error (configurationError "credential binding does not match endpoint origin") :=
  ⟨by decide, by decide, rfl⟩

end Philo
