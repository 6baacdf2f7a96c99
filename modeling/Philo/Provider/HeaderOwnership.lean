import Philo.Foundation.Layers
import Philo.Provider.Headers

/-! Who decides the value of a header. Each protected name has at most one source that
may write it, so that the ordinary layers do not interfere. -/

namespace Philo

open Result Layers List Function

namespace HeaderOperation

def write : HeaderOperation → HeaderName × Option HeaderValue
  | set name value => (name, some value.value)
  | remove name => (name, none)

def sensitive : HeaderOperation → Bool
  | set _ value => value.sensitive
  | remove _ => false

theorem write_fst (operation : HeaderOperation) : operation.write.1 = operation.name := by
  cases operation <;> rfl

end HeaderOperation

/-- The sources whose operations callers, models and policies supply. -/
def HeaderSource.isOrdinary : HeaderSource → Bool
  | .model | .dynamicPolicy | .request => true
  | _ => false

def operationsOf (layers : List HeaderLayer) (source : HeaderSource) : List HeaderOperation :=
  (layers.filter fun layer => layer.source = source).flatMap (·.operations)

namespace HeaderPolicy

/-! ## What a successful resolution computes -/

def Accepts (policy : HeaderPolicy) (entry : HeaderSource × HeaderOperation) : Prop :=
  policy.validateOperation entry.1 entry.2.name entry.2.sensitive = .ok ()

def stepOf (policy : HeaderPolicy) (entry : HeaderSource × HeaderOperation) : HeaderStep :=
  ⟨entry.2.name, entry.1, entry.2.write.2.isSome, policy.isProtected entry.2.name,
    entry.2.sensitive⟩

variable {policy : HeaderPolicy}

variable {resolved : ResolvedHeaders} {layers : List HeaderLayer} {source : HeaderSource}
  {name : HeaderName}

theorem applyOperation_eq_ok {next : ResolvedHeaders} {entry : HeaderSource × HeaderOperation} :
    policy.applyOperation resolved entry = .ok next ↔ policy.Accepts entry ∧
      next = ⟨write resolved.headers entry.2.write,
        resolved.steps ++ [policy.stepOf entry]⟩ := by
  rcases entry with ⟨source, operation⟩
  cases operation with
  | set name value =>
    cases checked : policy.validateOperation source name value.sensitive <;>
      simp [applyOperation, Accepts, HeaderOperation.name, HeaderOperation.sensitive, checked,
        write, stepOf, HeaderOperation.write, eq_comm]
  | remove name =>
    cases checked : policy.validateOperation source name false <;>
      simp [applyOperation, Accepts, HeaderOperation.name, HeaderOperation.sensitive, checked,
        write, stepOf, HeaderOperation.write, eq_comm]

theorem foldlM_applyOperation_eq_ok (entries : List (HeaderSource × HeaderOperation))
    (resolved final : ResolvedHeaders) :
    entries.foldlM policy.applyOperation resolved = .ok final ↔
      (∀ entry ∈ entries, policy.Accepts entry) ∧
        final = ⟨written resolved.headers (entries.map (·.2.write)),
          resolved.steps ++ entries.map policy.stepOf⟩ := by
  induction entries generalizing resolved with
  | nil =>
    simp only [foldlM_nil, pure_eq_ok, not_mem_nil, false_imp_iff, implies_true,
      true_and, map_nil, append_nil, written, foldl_nil]
    exact eq_comm
  | cons entry rest induction =>
    simp only [foldlM_cons, bind_eq_ok, applyOperation_eq_ok, forall_mem_cons, map_cons]
    constructor
    · rintro ⟨next, ⟨accepted, rfl⟩, remaining⟩
      rcases (induction _).mp remaining with ⟨allAccepted, isFinal⟩
      refine ⟨⟨accepted, allAccepted⟩, ?_⟩
      simpa [written, append_assoc] using isFinal
    · rintro ⟨⟨accepted, allAccepted⟩, rfl⟩
      refine ⟨_, ⟨accepted, rfl⟩, (induction _).mpr ⟨allAccepted, ?_⟩⟩
      simp [written, append_assoc]

/-- A resolution succeeds when every operation is accepted, and then the writes have
been made in the order of the sources. -/
theorem resolveLayers_eq_ok : policy.resolveLayers layers = .ok resolved ↔
      (∀ entry ∈ orderedOperations layers, policy.Accepts entry) ∧
        resolved = ⟨written (fun _ => none) ((orderedOperations layers).map (·.2.write)),
          (orderedOperations layers).map policy.stepOf⟩ := by
  rw [resolveLayers, foldlM_applyOperation_eq_ok, nil_append]

/-! ## The order of the operations -/

theorem orderedOperations_eq (layers : List HeaderLayer) : orderedOperations layers =
      (sortByRank (·.source.rank) layers).flatMap
        fun layer => layer.operations.map fun operation => (layer.source, operation) :=
  rfl

theorem resolveLayers_of_sorted (sorted : layers.Pairwise fun first second =>
      leRank (fun layer : HeaderLayer => layer.source.rank) first second = true) :
    policy.resolveLayers layers =
      (layers.flatMap fun layer => layer.operations.map fun operation =>
        (layer.source, operation)).foldlM policy.applyOperation ⟨fun _ => none, []⟩ := by
  rw [resolveLayers, orderedOperations_eq, sortByRank_of_pairwise _ sorted]

theorem rank_injective {first second : HeaderSource} (same : first.rank = second.rank) :
    first = second := by
  cases first <;> cases second <;> first | rfl | cases same

theorem filter_flatMap_source (layers : List HeaderLayer) (source : HeaderSource) :
    (layers.flatMap fun layer => layer.operations.map fun operation =>
        (layer.source, operation)).filter (fun entry => entry.1 = source) =
      (operationsOf layers source).map fun operation => (source, operation) := by
  induction layers with
  | nil => rfl
  | cons layer rest induction =>
    rw [flatMap_cons, filter_append, induction]
    by_cases same : layer.source = source
    · subst same
      simp [operationsOf, filter_map, comp_def]
    · simp [operationsOf, filter_map, comp_def, same]

theorem filter_orderedOperations (layers : List HeaderLayer) (source : HeaderSource) :
    (orderedOperations layers).filter (fun entry => entry.1 = source) =
      (operationsOf layers source).map fun operation => (source, operation) := by
  have kept : (sortByRank (·.source.rank) layers).filter
      (fun layer => layer.source = source) = layers.filter fun layer => layer.source = source := by
    refine filter_sortByRank _ _ _ ?_
    intro first second isFirst isSecond
    rw [of_decide_eq_true isFirst, of_decide_eq_true isSecond]
  rw [orderedOperations_eq, filter_flatMap_source, operationsOf, kept, operationsOf]

/-- Layers of distinct sources may come in any order. -/
theorem orderedOperations_eq_of_perm {others : List HeaderLayer}
    (perm : layers.Perm others) (distinct : (layers.map (·.source)).Nodup) :
    orderedOperations layers = orderedOperations others := by
  have distinctRanks : (layers.map (·.source.rank)).Nodup := by
    have ranks := distinct.map fun _ _ => rank_injective
    simpa [map_map, comp_def] using ranks
  rw [orderedOperations_eq, orderedOperations_eq, sortByRank_eq_of_perm _ perm distinctRanks]

/-! ## Owners -/

/-- The one source that may write a protected header, if any may. -/
def owner (policy : HeaderPolicy) (name : HeaderName) : Option HeaderSource :=
  match name.value with
  | "authorization" | "proxy-authorization" => some .auth
  | "content-type" | "accept" => some .protocol
  | "user-agent" => some .clientIdentity
  | "host" | "content-length" | "transfer-encoding" | "connection" | "cookie"
  | "set-cookie" => none
  | _ =>
    if policy.isAuthHeader name then some .auth
    else if policy.isProviderHeader name then some .provider
    else none

theorem owner_of_allows
    (isProtected : policy.isProtected name = true) (allowed : policy.allows source name = true) :
    policy.owner name = some source := by
  unfold allows at allowed
  unfold owner
  split at allowed
  case h_12 =>
    -- No table lists the name, so that a registration must protect it.
    have unlisted : isProtectedHeader name = false := by
      simp_all [isProtectedHeader, protectedHeaders]
    have registered : policy.isAuthHeader name = true ∨ policy.isProviderHeader name = true := by
      simpa [HeaderPolicy.isProtected, unlisted] using isProtected
    by_cases isAuth : policy.isAuthHeader name = true
    · simp_all
    · have isProvider := registered.resolve_left isAuth
      simp_all
  all_goals simp_all

theorem owner_not_isOrdinary
    (isOwner : policy.owner name = some source) : source.isOrdinary = false := by
  unfold owner at isOwner
  split at isOwner
  case h_12 =>
    split at isOwner
    · cases isOwner
      rfl
    · split at isOwner
      · cases isOwner
        rfl
      · cases isOwner
  all_goals
    cases isOwner
  all_goals rfl

theorem allows_of_accepts {entry : HeaderSource × HeaderOperation}
    (accepted : policy.Accepts entry) : policy.allows entry.1 entry.2.name = true := by
  simp only [Accepts, validateOperation, bind_eq_ok, reject_eq_ok, exists_const] at accepted
  simpa using accepted.1

/-! ## The value of a protected header -/

def lastValue (operations : List HeaderOperation) (name : HeaderName) : Option HeaderValue :=
  written (fun _ => none) (operations.map (·.write)) name

theorem filter_write (operations : List HeaderOperation) (name : HeaderName) :
    (operations.map (·.write)).filter (fun entry => entry.1 = name) =
      (operations.filter fun operation => operation.name = name).map (·.write) := by
  simp only [filter_map, comp_def, HeaderOperation.write_fst]

/-- All operations on a protected header come from its owner. -/
theorem filter_name_orderedOperations
    (accepted : ∀ entry ∈ orderedOperations layers, policy.Accepts entry) {name : HeaderName}
    (isProtected : policy.isProtected name = true) :
    ((orderedOperations layers).map Prod.snd).filter (fun operation => operation.name = name) =
      (policy.owner name).elim [] fun source =>
        (operationsOf layers source).filter fun operation => operation.name = name := by
  have owned : ∀ entry ∈ orderedOperations layers, entry.2.name = name →
      policy.owner name = some entry.1 := by
    intro entry member isName
    rw [← isName] at isProtected ⊢
    exact owner_of_allows isProtected (allows_of_accepts (accepted entry member))
  cases hasOwner : policy.owner name with
  | none =>
    simp only [Option.elim_none, filter_eq_nil_iff, mem_map]
    rintro operation ⟨entry, member, rfl⟩ isName
    have isOwner := owned entry member (of_decide_eq_true isName)
    rw [hasOwner] at isOwner
    cases isOwner
  | some source =>
    have sameSource : (orderedOperations layers).filter (fun entry => entry.2.name = name) =
        ((orderedOperations layers).filter fun entry => entry.1 = source).filter
          fun entry => entry.2.name = name := by
      rw [filter_filter]
      refine filter_congr fun entry member => ?_
      by_cases isName : entry.2.name = name
      · have isOwner := owned entry member isName
        rw [hasOwner] at isOwner
        simp [isName, Option.some.inj isOwner]
      · simp [isName]
    rw [filter_map]
    simp only [comp_def, sameSource, filter_orderedOperations, filter_map,
      map_map, Option.elim_some]
    simp

theorem headers_eq_lastValue
    (succeeded : policy.resolveLayers layers = .ok resolved) {name : HeaderName}
    (isProtected : policy.isProtected name = true) : resolved.headers name =
      (policy.owner name).elim none fun source => lastValue (operationsOf layers source) name := by
  rcases resolveLayers_eq_ok.mp succeeded with ⟨accepted, rfl⟩
  have onlyOwner := filter_name_orderedOperations accepted isProtected
  have writes : (orderedOperations layers).map (·.2.write) =
      ((orderedOperations layers).map Prod.snd).map (·.write) := by
    simp [map_map, comp_def]
  simp only [writes]
  cases hasOwner : policy.owner name with
  | none =>
    rw [hasOwner] at onlyOwner
    have untouched : written (fun _ => none)
        (((orderedOperations layers).map Prod.snd).map (·.write)) name =
          written (fun _ => none) [] name := by
      refine written_congr _ ?_
      rw [filter_write, onlyOwner]
      rfl
    exact untouched
  | some source =>
    rw [hasOwner] at onlyOwner
    refine written_congr _ ?_
    rw [filter_write, filter_write, onlyOwner]
    rfl

/-! ## Authentication headers -/

def lastSet (operations : List HeaderOperation) (name : HeaderName) : Option HeaderValue :=
  operations.reverse.findSome? fun operation =>
    match operation with
    | .set other value => if other = name then some value.value else none
    | .remove _ => none

theorem lastValue_eq_lastSet {operations : List HeaderOperation}
    (sensitive : ∀ operation ∈ operations, operation.sensitive = true) (name : HeaderName) :
    lastValue operations name = lastSet operations name := by
  induction operations using reverseRecOn with
  | nil => rfl
  | append_singleton rest operation induction =>
    have later := induction fun other member => sensitive other (by simp [member])
    have isSensitive := sensitive operation (by simp)
    simp only [lastSet, reverse_append, reverse_cons, reverse_nil,
      nil_append, singleton_append, findSome?_cons]
    cases operation with
    | remove other => cases isSensitive
    | set other value =>
      by_cases same : other = name
      · subst same
        simp only [lastValue, map_append, map_cons, map_nil, if_true]
        exact written_snoc_self ..
      · simp only [same, if_false]
        refine Eq.trans ?_ later
        simp only [lastValue, map_append, map_cons, map_nil]
        exact written_snoc_of_ne _ _ same

theorem lastSet_eq_none {operations : List HeaderOperation} {name : HeaderName}
    (others : ∀ operation ∈ operations, operation.name ≠ name) :
    lastSet operations name = none := by
  rw [lastSet, findSome?_eq_none_iff]
  intro operation member
  have different := others operation (mem_reverse.mp member)
  cases operation with
  | set other value => exact if_neg different
  | remove other => rfl

/-- The names that a policy may register for authentication and that another source owns
nevertheless. -/
def ownedElsewhere : List String := ["content-type", "accept", "user-agent"]

/-- No source at all may write the other names that an authentication scheme cannot claim. -/
theorem owner_of_isAuthHeader (isAuth : policy.isAuthHeader name = true)
    (free : name.value ∉ ownedElsewhere) :
    policy.owner name = some .auth ∨ policy.owner name = none := by
  simp only [ownedElsewhere, mem_cons, not_mem_nil, or_false, not_or] at free
  unfold owner
  split <;> simp_all

theorem mem_orderedOperations {operation : HeaderOperation}
    (member : operation ∈ operationsOf layers source) :
    (source, operation) ∈ orderedOperations layers := by
  have inFiltered : (source, operation) ∈
      (orderedOperations layers).filter fun entry => entry.1 = source := by
    rw [filter_orderedOperations]
    exact mem_map_of_mem member
  exact (mem_filter.mp inFiltered).1

/-- A protected header that a source writes with the last of its operations keeps what
that operation wrote. -/
theorem headers_of_last_operation
    (succeeded : policy.resolveLayers layers = .ok resolved) {source : HeaderSource}
    {earlier : List HeaderOperation} {operation : HeaderOperation}
    (contributed : operationsOf layers source = earlier ++ [operation])
    (isProtected : policy.isProtected operation.name = true) :
    resolved.headers operation.name = operation.write.2 := by
  have member : operation ∈ operationsOf layers source := by simp [contributed]
  have accepted := (resolveLayers_eq_ok.mp succeeded).1 _ (mem_orderedOperations member)
  have isOwner : policy.owner operation.name = some source :=
    owner_of_allows isProtected (allows_of_accepts accepted)
  rw [headers_eq_lastValue succeeded isProtected, isOwner, Option.elim_some, contributed,
    lastValue, map_append, map_singleton, ← HeaderOperation.write_fst]
  exact written_snoc_self ..

theorem sensitive_of_accepts {operation : HeaderOperation}
    (accepted : policy.Accepts (.auth, operation)) : operation.sensitive = true := by
  simp only [Accepts, validateOperation, bind_eq_ok, reject_eq_ok, exists_const] at accepted
  simpa using accepted.2.1

/-- Ordinary layers do not reach protected headers, authentication headers are decided by
the authentication layer, and layers of distinct sources may come in any order. -/
theorem resolveLayers_noninterference (policy : HeaderPolicy) (layers others : List HeaderLayer)
    (same : ∀ source : HeaderSource, source.isOrdinary = false →
      operationsOf layers source = operationsOf others source)
    (resolved resolvedOthers : ResolvedHeaders)
    (succeeded : policy.resolveLayers layers = .ok resolved)
    (succeededOthers : policy.resolveLayers others = .ok resolvedOthers) :
    (∀ name, policy.isProtected name = true →
      resolved.headers name = resolvedOthers.headers name) ∧
    (∀ name, policy.isAuthHeader name = true → name.value ∉ ownedElsewhere →
      resolved.headers name = lastSet (operationsOf layers .auth) name) ∧
    ∀ permuted, layers.Perm permuted → (layers.map (·.source)).Nodup →
      policy.resolveLayers permuted = .ok resolved := by
  refine ⟨?_, ?_, ?_⟩
  · intro name isProtected
    rw [headers_eq_lastValue succeeded isProtected,
      headers_eq_lastValue succeededOthers isProtected]
    cases isOwner : policy.owner name with
    | none => rfl
    | some source => simp only [Option.elim_some, same source (owner_not_isOrdinary isOwner)]
  · intro name isAuth free
    have isProtected : policy.isProtected name = true := by simp [HeaderPolicy.isProtected, isAuth]
    have accepted : ∀ operation ∈ operationsOf layers .auth, policy.Accepts (.auth, operation) :=
      fun operation member =>
        (resolveLayers_eq_ok.mp succeeded).1 _ (mem_orderedOperations member)
    rw [headers_eq_lastValue succeeded isProtected]
    rcases owner_of_isAuthHeader isAuth free with isOwner | unowned
    · rw [isOwner, Option.elim_some]
      apply lastValue_eq_lastSet
      intro operation member
      exact sensitive_of_accepts (accepted operation member)
    · rw [unowned, Option.elim_none, lastSet_eq_none]
      intro operation member isName
      have isOwner : policy.owner operation.name = some .auth :=
        owner_of_allows (isName ▸ isProtected) (allows_of_accepts (accepted operation member))
      rw [isName, unowned] at isOwner
      cases isOwner
  · intro permuted perm distinct
    rw [← succeeded, resolveLayers, resolveLayers, orderedOperations_eq_of_perm perm distinct]

section Samples

def jsonValue : HeaderValue := ⟨"application/json", by decide⟩

def bearerValue : HeaderValue := ⟨"Bearer k", by decide⟩

def traceName : HeaderName := ⟨"x-trace", by decide⟩

def bearerPolicy : HeaderPolicy := ⟨[.authorization], []⟩

def tracedLayers (value : HeaderValue) : List HeaderLayer :=
  [⟨.protocol, [.setPlain .contentType jsonValue]⟩, ⟨.request, [.setPlain traceName value]⟩,
    ⟨.auth, [.setSensitive .authorization bearerValue]⟩]

theorem operationsOf_tracedLayers (first second : HeaderValue) (source : HeaderSource)
    (notOrdinary : source.isOrdinary = false) :
    operationsOf (tracedLayers first) source = operationsOf (tracedLayers second) source := by
  cases source <;> first | rfl | cases notOrdinary

theorem tracedLayers_noninterference :
    ∃ resolved resolvedOthers,
      bearerPolicy.resolveLayers (tracedLayers jsonValue) = .ok resolved ∧
      bearerPolicy.resolveLayers (tracedLayers bearerValue) = .ok resolvedOthers ∧
      (∀ name, bearerPolicy.isProtected name = true →
        resolved.headers name = resolvedOthers.headers name) ∧
      resolved.headers .authorization = some bearerValue := by
  have first : bearerPolicy.resolveLayers (tracedLayers jsonValue) = _ :=
    resolveLayers_of_sorted (by decide)
  have second : bearerPolicy.resolveLayers (tracedLayers bearerValue) = _ :=
    resolveLayers_of_sorted (by decide)
  have independent := resolveLayers_noninterference bearerPolicy _ _
    (operationsOf_tracedLayers _ _) _ _ first second
  exact ⟨_, _, first, second, independent.1, independent.2.1 .authorization rfl (by decide)⟩

/-- A policy may register `content-type` for authentication. The protocol layer still
owns it, and the authentication layer has not set it. -/
theorem contentType_owned_by_protocol :
    HeaderPolicy.isAuthHeader ⟨[.contentType], []⟩ .contentType = true ∧
      ∃ resolved, HeaderPolicy.resolveLayers ⟨[.contentType], []⟩
          [⟨.protocol, [.setPlain .contentType jsonValue]⟩, ⟨.auth, []⟩] = .ok resolved ∧
        resolved.headers .contentType = some jsonValue ∧
        lastSet (operationsOf [⟨.protocol, [.setPlain .contentType jsonValue]⟩, ⟨.auth, []⟩]
          .auth) .contentType = none :=
  ⟨by decide, _, resolveLayers_of_sorted (by decide), rfl, rfl⟩

end Samples

end HeaderPolicy

end Philo
