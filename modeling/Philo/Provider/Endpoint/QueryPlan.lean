import Philo.Foundation.Table
import Philo.Foundation.UrlForm
import Philo.Provider.Endpoint.Template

/-! What the registered query operations make of the query of a base URL. -/

namespace Philo

open Result Std Function List UrlForm

/-! ## Registration -/

inductive QueryCall where
  | set (name value : String) (merge : QueryMergeRule) (source : EndpointQuerySource)
  | remove (name : String) (source : EndpointQuerySource)

def QueryOperation.setValue? : QueryOperation → Option String
  | .set value _ _ => some value
  | .remove _ => none

def QueryOperation.rejectsExisting : QueryOperation → Bool
  | .set _ merge _ => merge = .rejectExisting
  | .remove _ => false

def QueryOperation.diagnostic (name : String) : QueryOperation → EndpointQueryDiagnostic
  | .set _ _ source => ⟨name, .set, source⟩
  | .remove source => ⟨name, .remove, source⟩

namespace QueryCall

def name : QueryCall → String
  | .set name _ _ _ | .remove name _ => Text.toAsciiLowercase name

def operation : QueryCall → QueryOperation
  | .set _ value merge source => .set value merge source
  | .remove _ source => .remove source

def pair? (call : QueryCall) : Option (String × String) :=
  call.operation.setValue?.map fun value => (call.name, value)

def diagnostic (call : QueryCall) : EndpointQueryDiagnostic := call.operation.diagnostic call.name

end QueryCall

namespace EndpointQuery

def call (query : EndpointQuery) : QueryCall → Except LlmError EndpointQuery
  | .set name value merge source => query.withSet name value merge source
  | .remove name source => query.withRemove name source

def build (calls : List QueryCall) : Except LlmError EndpointQuery := calls.foldlM call new

theorem call_eq_ok {query next : EndpointQuery} {made : QueryCall}
    (called : query.call made = .ok next) : lookup query.operations made.name = none ∧
      next.operations = query.operations.insert made.name made.operation := by
  have registered : query.register made.name made.operation = .ok next := by
    cases made <;>
      simp only [call, withSet, withRemove, validateQueryName, validateQueryValue, bind_eq_ok,
        reject_eq_ok, exists_const, Except.ok.injEq] at called
    · rcases called with ⟨_, ⟨_, _, rfl⟩, _, ⟨_, rfl⟩, registered⟩
      exact registered
    · rcases called with ⟨_, ⟨_, _, rfl⟩, registered⟩
      exact registered
  simp only [register, bind_eq_ok, reject_eq_ok, exists_const, Except.ok.injEq,
    Bool.not_eq_true] at registered
  rcases registered with ⟨isNew, rfl⟩
  refine ⟨not_mem_iff_lookup.mp fun member => ?_, rfl⟩
  rw [TreeMap.contains_iff_mem.mpr member] at isNew
  cases isNew

/-- The calls in the order of the registered names are what was registered. -/
theorem operations_of_calls {calls : List QueryCall} {query next : EndpointQuery}
    (built : calls.foldlM call query = .ok next) : next.operations.toList.Perm
      (query.operations.toList ++ calls.map fun made => (made.name, made.operation)) := by
  induction calls generalizing query with
  | nil =>
    cases built
    simp
  | cons made rest induction =>
    rw [foldlM_cons, bind_eq_ok] at built
    rcases built with ⟨middle, called, later⟩
    rcases call_eq_ok called with ⟨isNew, inserted⟩
    have first : middle.operations.toList.Perm
        ((made.name, made.operation) :: query.operations.toList) := by
      rw [inserted]
      refine toList_perm_cons (by rw [lookup_insert, update_self]) ?_
      rw [lookup_insert, update_idem, eq_comm, update_eq_self_iff, isNew]
    refine (induction later).trans ((first.append_right _).trans ?_)
    rw [map_cons]
    exact perm_middle.symm

theorem operations_of_build {calls : List QueryCall} {query : EndpointQuery}
    (built : build calls = .ok query) :
    query.operations.toList.Perm (calls.map fun made => (made.name, made.operation)) := by
  have listed := operations_of_calls built
  rwa [show new.operations.toList = [] from rfl, nil_append] at listed

end EndpointQuery

/-! ## Application -/

/-- What is used of the `url` crate: form encoding and decoding are inverse, and without a
pair there is no query. -/
structure UrlLibrary.QueryLaws (library : UrlLibrary) : Prop where
  readBack : ∀ url pairs, library.queryPairs (library.withQueryPairs url pairs) = pairs
  noPairs : ∀ url, (library.withQueryPairs url []).query = none

namespace EndpointQuery

def plan (library : UrlLibrary) (query : EndpointQuery) (url : Url) :
    Except LlmError (TreeMap String String × List EndpointQueryDiagnostic) := do
  let existing ← (library.queryPairs url).foldlM query.collectPair ∅
  query.operations.toList.foldlM applyOperation (existing, [])

/-- `apply` with the URL that it borrows, which is changed after the last step that fails. -/
def applyTo (library : UrlLibrary) (query : EndpointQuery) (url : Url) :
    Except LlmError (List EndpointQueryDiagnostic) × Url :=
  match query.plan library url with
  | .error error => (.error error, url)
  | .ok (pairs, diagnostics) => (.ok diagnostics, library.withQueryPairs url pairs.toList)

theorem apply_eq_applyTo (library : UrlLibrary) (query : EndpointQuery) (url : Url) :
    query.apply library url = (query.applyTo library url).1.map fun diagnostics =>
      ((query.applyTo library url).2, diagnostics) := by
  unfold apply applyTo plan
  cases (library.queryPairs url).foldlM query.collectPair ∅ with
  | error raised => rfl
  | ok existing =>
    simp only [bind, Except.bind]
    cases query.operations.toList.foldlM applyOperation (existing, []) <;> rfl

/-! ### The pairs of the base URL -/

section Collect

variable {query : EndpointQuery} {pairs : List (String × String)}
  {existing collected : TreeMap String String}

structure Admits (query : EndpointQuery) (pairs : List (String × String)) : Prop where
  valid : ∀ pair ∈ pairs, Succeeds (validateQueryName pair.1)
  registered : ∀ pair ∈ pairs, pair.1 ∈ query.operations
  distinct : (pairs.map Prod.fst).Nodup

theorem collectPair_eq_ok {pair : String × String} :
    query.collectPair existing pair = .ok collected ↔
      Succeeds (validateQueryName pair.1) ∧ pair.1 ∉ existing ∧ pair.1 ∈ query.operations ∧
        collected = existing.insert pair.1 pair.2 := by
  simp only [collectPair, bind_eq_ok, reject_eq_ok, exists_const, Except.ok.injEq,
    TreeMap.contains_iff_mem, Bool.not_eq_false, exists_and_right, Succeeds]
  rw [@eq_comm _ collected]

theorem collect_eq_ok : Succeeds (pairs.foldlM query.collectPair existing) ↔
      query.Admits pairs ∧ ∀ pair ∈ pairs, pair.1 ∉ existing := by
  induction pairs generalizing existing with
  | nil => exact iff_of_true ⟨existing, rfl⟩ ⟨⟨by simp, by simp, nodup_nil⟩, by simp⟩
  | cons pair rest induction =>
    have step : Succeeds ((pair :: rest).foldlM query.collectPair existing) ↔
        (Succeeds (validateQueryName pair.1) ∧ pair.1 ∉ existing ∧
          pair.1 ∈ query.operations) ∧
          Succeeds (rest.foldlM query.collectPair (existing.insert pair.1 pair.2)) := by
      simp only [Succeeds, foldlM_cons, bind_eq_ok, collectPair_eq_ok]
      constructor
      · rintro ⟨final, _, ⟨valid, isNew, registered, rfl⟩, later⟩
        exact ⟨⟨valid, isNew, registered⟩, final, later⟩
      · rintro ⟨⟨valid, isNew, registered⟩, final, later⟩
        exact ⟨final, _, ⟨valid, isNew, registered, rfl⟩, later⟩
    rw [step, induction]
    simp only [mem_insert_iff, not_or]
    constructor
    · rintro ⟨⟨valid, isNew, registered⟩, ⟨validRest, registeredRest, distinct⟩, fresh⟩
      refine ⟨⟨forall_mem_cons.mpr ⟨valid, validRest⟩,
        forall_mem_cons.mpr ⟨registered, registeredRest⟩, ?_⟩,
        forall_mem_cons.mpr ⟨isNew, fun other member => (fresh other member).2⟩⟩
      rw [map_cons, nodup_cons, mem_map]
      refine ⟨?_, distinct⟩
      rintro ⟨other, member, same⟩
      exact (fresh other member).1 same
    · rintro ⟨⟨valid, registered, distinct⟩, fresh⟩
      rw [forall_mem_cons] at valid registered fresh
      rw [map_cons, nodup_cons, mem_map] at distinct
      exact ⟨⟨valid.1, fresh.1, registered.1⟩, ⟨valid.2, registered.2, distinct.2⟩,
        fun other member => ⟨fun same => distinct.1 ⟨other, member, same⟩,
          fresh.2 other member⟩⟩

theorem mem_collected (collects : pairs.foldlM query.collectPair existing = .ok collected)
    (name : String) : name ∈ collected ↔ name ∈ existing ∨ name ∈ pairs.map Prod.fst := by
  induction pairs generalizing existing with
  | nil =>
    cases collects
    simp
  | cons pair rest induction =>
    rw [foldlM_cons, bind_eq_ok] at collects
    rcases collects with ⟨middle, first, later⟩
    rcases collectPair_eq_ok.mp first with ⟨_, _, _, rfl⟩
    rw [induction later, mem_insert_iff, map_cons, mem_cons]
    tauto

end Collect

/-! ### The registered operations -/

section Operations

variable {entries : List (String × QueryOperation)}
  {existing : TreeMap String String} {earlier : List EndpointQueryDiagnostic}
  {final : TreeMap String String × List EndpointQueryDiagnostic}

theorem applyOperation_succeeds {entry : String × QueryOperation} :
    Succeeds (applyOperation (existing, earlier) entry) ↔
      (entry.1 ∈ existing → entry.2.rejectsExisting = false) := by
  rcases entry with ⟨name, operation⟩
  cases operation with
  | set value merge source => simp [Succeeds, applyOperation, QueryOperation.rejectsExisting]
  | remove source => simp [applyOperation, QueryOperation.rejectsExisting]

theorem applyOperation_eq_ok {entry : String × QueryOperation}
    (applied : applyOperation (existing, earlier) entry = .ok final) :
    lookup final.1 = update (lookup existing) entry.1 entry.2.setValue? ∧
      final.2 = earlier ++ [entry.2.diagnostic entry.1] := by
  rcases entry with ⟨name, operation⟩
  cases operation with
  | set value merge source =>
    simp only [applyOperation, bind_eq_ok, Except.ok.injEq] at applied
    rcases applied with ⟨_, _, rfl⟩
    exact ⟨lookup_insert .., rfl⟩
  | remove source =>
    cases applied
    exact ⟨lookup_erase .., rfl⟩

/-- The operations are registered under different names, so none of them sees what another
one did. -/
theorem operations_succeed (distinct : (entries.map Prod.fst).Nodup) :
    Succeeds (entries.foldlM applyOperation (existing, earlier)) ↔
      ∀ entry ∈ entries, entry.1 ∈ existing → entry.2.rejectsExisting = false := by
  induction entries generalizing existing earlier with
  | nil => exact iff_of_true ⟨_, rfl⟩ fun _ member => nomatch member
  | cons entry rest induction =>
    rw [map_cons, nodup_cons] at distinct
    rw [forall_mem_cons, foldlM_cons]
    have sameNames : ∀ {next}, applyOperation (existing, earlier) entry = .ok next →
        ((∀ other ∈ rest, other.1 ∈ next.1 → other.2.rejectsExisting = false) ↔
          ∀ other ∈ rest, other.1 ∈ existing → other.2.rejectsExisting = false) := by
      intro next applied
      refine forall₂_congr fun other member => ?_
      have differs : other.1 ≠ entry.1 := by
        intro same
        exact distinct.1 (mem_map.mpr ⟨other, member, same⟩)
      rw [mem_iff_lookup, mem_iff_lookup, (applyOperation_eq_ok applied).1, update_of_ne differs]
    constructor
    · rintro ⟨final, applied⟩
      rcases bind_eq_ok.mp applied with ⟨next, first, later⟩
      exact ⟨applyOperation_succeeds.mp ⟨next, first⟩,
        (sameNames first).mp ((induction distinct.2).mp ⟨final, later⟩)⟩
    · rintro ⟨allowed, others⟩
      rcases applyOperation_succeeds.mpr allowed with ⟨next, first⟩
      rcases (induction distinct.2).mpr ((sameNames first).mpr others) with ⟨final, later⟩
      exact ⟨final, bind_eq_ok.mpr ⟨next, first, later⟩⟩

theorem operations_eq_ok (distinct : (entries.map Prod.fst).Nodup)
    (applied : entries.foldlM applyOperation (existing, earlier) = .ok final) :
    final.2 = earlier ++ entries.map (fun entry => entry.2.diagnostic entry.1) ∧
      (∀ entry ∈ entries, lookup final.1 entry.1 = entry.2.setValue?) ∧
        ∀ name ∉ entries.map Prod.fst, lookup final.1 name = lookup existing name := by
  induction entries generalizing existing earlier with
  | nil =>
    cases applied
    simp
  | cons entry rest induction =>
    rw [map_cons, nodup_cons] at distinct
    rw [foldlM_cons, bind_eq_ok] at applied
    rcases applied with ⟨next, first, later⟩
    rcases applyOperation_eq_ok first with ⟨changed, logged⟩
    rcases induction distinct.2 later with ⟨diagnostics, own, others⟩
    refine ⟨by rw [diagnostics, logged]; simp, ?_, ?_⟩
    · rw [forall_mem_cons]
      refine ⟨?_, own⟩
      rw [others entry.1 distinct.1, changed, update_self]
    · intro name notNamed
      rw [map_cons, mem_cons, not_or] at notNamed
      rw [others name notNamed.2, changed, update_of_ne notNamed.1]

end Operations

/-! ### The query of the result -/

/-- The base URL has a query that the calls do not provide for: a key that is invalid, given
twice, not registered, or registered as one that must not be there. -/
def RefusesBase (library : UrlLibrary) (calls : List QueryCall) (url : Url) : Prop :=
  (∃ pair ∈ library.queryPairs url, ¬ Succeeds (validateQueryName pair.1)) ∨
    ¬ ((library.queryPairs url).map Prod.fst).Nodup ∨
    (∃ pair ∈ library.queryPairs url, ∀ made ∈ calls, made.name ≠ pair.1) ∨
    ∃ pair ∈ library.queryPairs url, ∃ made ∈ calls,
      made.name = pair.1 ∧ made.operation.rejectsExisting = true

/-- The query is what the calls ask for, whatever the base URL had. -/
structure FollowsPlan (library : UrlLibrary) (calls : List QueryCall) (url : Url)
    (diagnostics : List EndpointQueryDiagnostic) : Prop where
  pairs : (library.queryPairs url).Perm (calls.filterMap QueryCall.pair?)
  ascending : (library.queryPairs url).Pairwise fun first second => first.1 < second.1
  noQuery : calls.filterMap QueryCall.pair? = [] → url.query = none
  diagnostics : diagnostics.Perm (calls.map QueryCall.diagnostic)

section Plan

variable {library : UrlLibrary} {calls : List QueryCall} {query : EndpointQuery} {url : Url}

theorem nodup_names (query : EndpointQuery) : (query.operations.toList.map Prod.fst).Nodup := by
  refine pairwise_map.mpr (TreeMap.distinct_keys_toList.imp ?_)
  intro first second apart same
  exact apart (Std.compare_eq_iff_eq.mpr same)

theorem mem_operations_iff {name : String} :
    name ∈ query.operations ↔ ∃ entry ∈ query.operations.toList, entry.1 = name := by
  rw [mem_iff_lookup]
  constructor
  · rintro ⟨operation, found⟩
    exact ⟨(name, operation), TreeMap.mem_toList_iff_getElem?_eq_some.mpr found, rfl⟩
  · rintro ⟨⟨_, operation⟩, member, rfl⟩
    exact ⟨operation, TreeMap.mem_toList_iff_getElem?_eq_some.mp member⟩

theorem mem_calls_iff (built : build calls = .ok query) {entry : String × QueryOperation} :
    entry ∈ query.operations.toList ↔
      ∃ made ∈ calls, (made.name, made.operation) = entry := by
  rw [(operations_of_build built).mem_iff, mem_map]

theorem plan_succeeds (built : build calls = .ok query) :
    Succeeds (query.plan library url) ↔ ¬ RefusesBase library calls url := by
  have steps : Succeeds (query.plan library url) ↔
      query.Admits (library.queryPairs url) ∧
        ∀ entry ∈ query.operations.toList,
          entry.1 ∈ (library.queryPairs url).map Prod.fst →
            entry.2.rejectsExisting = false := by
    constructor
    · rintro ⟨final, planned⟩
      rcases bind_eq_ok.mp planned with ⟨existing, collects, applied⟩
      have allowed := (operations_succeed (nodup_names query)).mp ⟨final, applied⟩
      refine ⟨(collect_eq_ok.mp ⟨existing, collects⟩).1, fun entry member isNamed => ?_⟩
      exact allowed entry member ((mem_collected collects _).mpr (.inr isNamed))
    · rintro ⟨admits, allowed⟩
      have started : Succeeds ((library.queryPairs url).foldlM query.collectPair ∅) :=
        collect_eq_ok.mpr ⟨admits, fun _ _ => TreeMap.not_mem_emptyc⟩
      rcases started with ⟨existing, collects⟩
      have applies : Succeeds (query.operations.toList.foldlM applyOperation (existing, [])) := by
        refine (operations_succeed (nodup_names query)).mpr fun entry member isThere => ?_
        rcases (mem_collected collects _).mp isThere with before | isNamed
        · exact (TreeMap.not_mem_emptyc before).elim
        · exact allowed entry member isNamed
      rcases applies with ⟨final, applied⟩
      exact ⟨final, bind_eq_ok.mpr ⟨existing, collects, applied⟩⟩
  rw [steps]
  unfold RefusesBase
  push Not
  constructor
  · rintro ⟨⟨valid, registered, distinct⟩, allowed⟩
    refine ⟨valid, distinct, ?_, ?_⟩
    · intro pair member
      rcases mem_operations_iff.mp (registered pair member) with ⟨entry, isEntry, isName⟩
      rcases (mem_calls_iff built).mp isEntry with ⟨made, isCall, rfl⟩
      exact ⟨made, isCall, isName⟩
    · intro pair member made isCall isName
      have isNamed : made.name ∈ (library.queryPairs url).map Prod.fst := by
        rw [isName]
        exact mem_map_of_mem member
      have allows := allowed _ ((mem_calls_iff built).mpr ⟨made, isCall, rfl⟩) isNamed
      simpa using allows
  · rintro ⟨valid, distinct, registered, allowed⟩
    refine ⟨⟨valid, ?_, distinct⟩, ?_⟩
    · intro pair member
      rcases registered pair member with ⟨made, isCall, isName⟩
      exact mem_operations_iff.mpr ⟨_, (mem_calls_iff built).mpr ⟨made, isCall, rfl⟩, isName⟩
    · intro entry isEntry isNamed
      rcases (mem_calls_iff built).mp isEntry with ⟨made, isCall, rfl⟩
      rcases mem_map.mp isNamed with ⟨pair, member, isName⟩
      simpa using allowed pair member made isCall isName.symm

theorem plan_eq_ok (built : build calls = .ok query)
    {final : TreeMap String String × List EndpointQueryDiagnostic}
    (planned : query.plan library url = .ok final) :
    final.1.toList.Perm (calls.filterMap QueryCall.pair?) ∧
      final.2.Perm (calls.map QueryCall.diagnostic) := by
  rcases bind_eq_ok.mp planned with ⟨existing, collects, applied⟩
  have registered := (collect_eq_ok.mp ⟨existing, collects⟩).1.registered
  rcases operations_eq_ok (nodup_names query) applied with ⟨diagnostics, own, others⟩
  have listed := operations_of_build built
  constructor
  · have asked : (query.operations.toList.filterMap fun entry =>
        entry.2.setValue?.map fun value => (entry.1, value)).Perm
          (calls.filterMap QueryCall.pair?) := by
      have mapped := listed.filterMap fun entry =>
        entry.2.setValue?.map fun value => (entry.1, value)
      rwa [filterMap_map] at mapped
    refine Perm.trans ?_ asked
    refine (perm_ext_iff_of_nodup (nodup_toList _) ?_).mpr ?_
    · rw [Nodup, pairwise_filterMap]
      refine (pairwise_map.mp (nodup_names query)).imp ?_
      intro first second apart pair isFirst other isSecond same
      rcases Option.map_eq_some_iff.mp isFirst with ⟨value, _, rfl⟩
      rcases Option.map_eq_some_iff.mp isSecond with ⟨otherValue, _, rfl⟩
      exact apart (Prod.mk.inj same).1
    · rintro ⟨name, value⟩
      rw [TreeMap.mem_toList_iff_getElem?_eq_some, mem_filterMap]
      change lookup final.1 name = some value ↔ _
      simp only [Option.map_eq_some_iff, Prod.mk.injEq]
      constructor
      · intro found
        by_cases isName : name ∈ query.operations.toList.map Prod.fst
        · rcases mem_map.mp isName with ⟨entry, member, rfl⟩
          exact ⟨entry, member, value, (own entry member).symm.trans found, rfl, rfl⟩
        · rw [others name isName] at found
          have isThere := (mem_collected collects name).mp (mem_iff_lookup.mpr ⟨value, found⟩)
          rcases isThere.resolve_left TreeMap.not_mem_emptyc |> mem_map.mp with
            ⟨pair, member, rfl⟩
          rcases mem_operations_iff.mp (registered pair member) with ⟨entry, isEntry, same⟩
          exact (isName (mem_map.mpr ⟨entry, isEntry, same⟩)).elim
      · rintro ⟨entry, member, found, isSet, rfl, rfl⟩
        rw [own entry member, isSet]
  · rw [diagnostics, nil_append]
    have mapped := listed.map fun entry => entry.2.diagnostic entry.1
    rwa [map_map] at mapped

end Plan

/-- Applying a query gives the registered pairs in the order of their names, or fails for the
query of the base URL and leaves it as it is. -/
theorem applyTo_followsPlan (library : UrlLibrary) (laws : library.QueryLaws)
    (calls : List QueryCall) (query : EndpointQuery) (built : build calls = .ok query)
    (url : Url) :
    (∀ diagnostics, (query.applyTo library url).1 = .ok diagnostics →
        FollowsPlan library calls (query.applyTo library url).2 diagnostics) ∧
      ((∃ error, (query.applyTo library url).1 = .error error) ↔
        RefusesBase library calls url) ∧
      ((∃ error, (query.applyTo library url).1 = .error error) →
        (query.applyTo library url).2 = url) := by
  have verdict := @plan_succeeds library calls query url built
  unfold applyTo
  cases planned : query.plan library url with
  | error raised =>
      have refused : RefusesBase library calls url := by
        by_contra admitted
        rcases verdict.mpr admitted with ⟨final, succeeded⟩
        rw [planned] at succeeded
        cases succeeded
      exact ⟨nofun, iff_of_true ⟨raised, rfl⟩ refused, fun _ => rfl⟩
  | ok final =>
      have admitted : ¬ RefusesBase library calls url := verdict.mp ⟨final, planned⟩
      rcases plan_eq_ok built planned with ⟨pairs, logged⟩
      refine ⟨?_, iff_of_false (fun ⟨_, failed⟩ => nomatch failed) admitted,
        fun ⟨_, failed⟩ => nomatch failed⟩
      rintro diagnostics ⟨⟩
      dsimp only
      refine ⟨?_, ?_, ?_, logged⟩
      · rw [laws.readBack]
        exact pairs
      · rw [laws.readBack]
        refine TreeMap.ordered_keys_toList.imp fun below => ?_
        exact compareOfLessAndEq_eq_lt.mp below
      · intro nothing
        rw [nothing, perm_nil] at pairs
        rw [pairs]
        exact laws.noPairs url

end EndpointQuery

/-! ## Queries as the standard writes them -/

def UrlLibrary.standard : UrlLibrary where
  setPath url path :=
    { url with path := String.ofList (UrlPath.serialize (UrlPath.segmentsOf path.toList)) }
  queryPairs url := UrlForm.readPairs (url.query.getD "").toList
  withQueryPairs url pairs :=
    { url with query := if pairs = [] then none else some (String.ofList (writePairs pairs)) }

theorem UrlLibrary.queryLaws_standard : standard.QueryLaws where
  readBack url pairs := by
    by_cases nothing : pairs = []
    · simp only [standard, nothing, if_true, Option.getD_none]
      exact readPairs_writePairs []
    · simp only [standard, nothing, if_false, Option.getD_some, String.toList_ofList,
        readPairs_writePairs]
  noPairs url := by simp only [standard, if_true]

def versionCalls : List QueryCall :=
  [.set "API-Version" "2/é" .override .productProfile, .remove "trace" .deploymentMapping]

def versionedUrl : Url := { Url.sample with query := some "api-version=1&trace=a+b%26c" }

theorem EndpointQuery.versionedUrl_followsPlan : ∃ query,
    EndpointQuery.build versionCalls = .ok query ∧
      (∀ diagnostics, (query.applyTo .standard versionedUrl).1 = .ok diagnostics →
        FollowsPlan .standard versionCalls (query.applyTo .standard versionedUrl).2
          diagnostics) ∧
      UrlLibrary.standard.queryPairs versionedUrl = [("api-version", "1"), ("trace", "a b&c")] ∧
      (query.applyTo .standard versionedUrl).2.query = some "api-version=2%2F%C3%A9" := by
  have given : ((EndpointQuery.build versionCalls).map fun query =>
      (query.applyTo .standard versionedUrl).2.query).toOption =
        some (some "api-version=2%2F%C3%A9") := by decide +kernel
  rcases exists_ok_of_map given with ⟨query, built, isQuery⟩
  exact ⟨query, built, (applyTo_followsPlan _ UrlLibrary.queryLaws_standard _ query built
    versionedUrl).1, by decide +kernel, isQuery⟩

end Philo
