import Philo.Domain.Schema.Compile
import Philo.Foundation.Paths
import Philo.Foundation.Table

/-! Which reference graphs the depth-first search accepts. -/

namespace Philo

open Result Std Paths

namespace ToolSchema

/-! ## The search -/

section Search

variable {graph : ReferenceGraph} {maxExpansions levels : Nat} {walk middle next : GraphWalk}
  {node first : String} {nodes rest : List String} {reachable : TreeSet String}

def ReferenceGraph.Edge (graph : ReferenceGraph) (target source : String) : Prop :=
  target ∈ graph.edges source

structure Searching (graph : ReferenceGraph) (maxExpansions : Nat) (walk : GraphWalk) :
    Prop where
  closed : ∀ node ∈ walk.visited, ∀ next ∈ graph.edges node, next ∈ walk.visited
  acyclic : ∀ node ∈ walk.visited, Acc graph.Edge node
  apart : ∀ node ∈ walk.visiting, node ∉ walk.visited
  counted : walk.expansionCount =
    saturatingAdd 0 (walk.visited.size + walk.visiting.size)
  within : walk.expansionCount ≤ maxExpansions

structure Searched (graph : ReferenceGraph) (nodes : List String) (walk next : GraphWalk) :
    Prop where
  visited : ∀ target, target ∈ next.visited ↔
    target ∈ walk.visited ∨ ReachedFrom graph.edges nodes target
  visiting : ∀ target, target ∈ next.visiting ↔ target ∈ walk.visiting
  sameSize : next.visiting.size = walk.visiting.size

/-- Everything new that the nodes lead to is on no cycle, and the search finds it early
enough. -/
def Fits (graph : ReferenceGraph) (levels : Nat) (nodes : List String) (walk : GraphWalk) :
    Prop :=
  ∀ target ∉ walk.visited, ReachedFrom graph.edges nodes target →
    target ∉ walk.visiting ∧ ¬ OnCycle graph.edges target ∧
      ∃ count < levels, FirstFrom graph.edges target nodes count

theorem Searching.reached (searching : Searching graph maxExpansions walk) {target : String}
    (isVisited : node ∈ walk.visited) (reaches : Reaches graph.edges node target) :
    target ∈ walk.visited := by
  induction reaches with
  | refl => exact isVisited
  | tail _ edge induction => exact searching.closed _ induction _ edge

theorem not_onCycle (accessible : Acc graph.Edge node) : ¬ OnCycle graph.edges node := by
  induction accessible with
  | intro node _ induction =>
    rintro ⟨next, edge, back⟩
    refine induction next edge ?_
    rcases reaches_iff.mp back with rfl | ⟨later, isEdge, reaches⟩
    · exact ⟨next, edge, back⟩
    · exact ⟨later, isEdge, reaches.tail edge⟩

theorem fits_cons : Fits graph levels (first :: rest) walk ↔
      Fits graph levels [first] walk ∧
        ∀ target ∉ walk.visited, ¬ Reaches graph.edges first target →
          ReachedFrom graph.edges rest target →
            target ∉ walk.visiting ∧ ¬ OnCycle graph.edges target ∧
              ∃ count < levels, FirstFrom graph.edges target rest count := by
  constructor
  · refine fun fits => ⟨fun target isNew reached => ?_, fun target isNew apart reached => ?_⟩
    · have reaches := reachedFrom_singleton.mp reached
      simpa only [firstFrom_of_reaches reaches] using
        fits target isNew (reachedFrom_cons.mpr (.inl reaches))
    · simpa only [firstFrom_of_not_reaches apart] using
        fits target isNew (reachedFrom_cons.mpr (.inr reached))
  · rintro ⟨now, later⟩ target isNew reached
    by_cases reaches : Reaches graph.edges first target
    · simpa only [firstFrom_of_reaches reaches] using
        now target isNew (reachedFrom_singleton.mpr reaches)
    · simpa only [firstFrom_of_not_reaches reaches] using
        later target isNew reaches ((reachedFrom_cons.mp reached).resolve_left reaches)

theorem Searched.fits_cons (searched : Searched graph [first] walk middle) :
    Fits graph levels (first :: rest) walk ↔
      Fits graph levels [first] walk ∧ Fits graph levels rest middle := by
  rw [ToolSchema.fits_cons]
  simp only [Fits, searched.visited, searched.visiting, reachedFrom_singleton, not_or, and_imp]

theorem Searched.trans (now : Searched graph [first] walk middle)
    (later : Searched graph rest middle next) : Searched graph (first :: rest) walk next where
  visited target := by
    rw [later.visited, now.visited, reachedFrom_singleton, reachedFrom_cons, or_assoc]
  visiting target := by rw [later.visiting, now.visiting]
  sameSize := by rw [later.sameSize, now.sameSize]

theorem Searching.visited (searching : Searching graph maxExpansions walk)
    (isVisited : node ∈ walk.visited) :
    Searched graph [node] walk walk ∧ Fits graph levels [node] walk := by
  have inside : ∀ target, ReachedFrom graph.edges [node] target → target ∈ walk.visited :=
    fun target reached => searching.reached isVisited (reachedFrom_singleton.mp reached)
  refine ⟨⟨fun target => ?_, fun _ => Iff.rfl, rfl⟩, fun target isNew reached => ?_⟩
  · exact ⟨.inl, fun either => either.elim id (inside target)⟩
  · exact absurd (inside target reached) isNew

/-! ### One node -/

def GraphWalk.enter (walk : GraphWalk) (node : String) : GraphWalk :=
  { walk with
    visiting := walk.visiting.insert node
    expansionCount := saturatingAdd walk.expansionCount 1 }

def GraphWalk.leave (walk : GraphWalk) (node : String) : GraphWalk :=
  { walk with
    visiting := walk.visiting.erase node
    visited := walk.visited.insert node }

theorem visitReferenceNode_visited (isVisited : node ∈ walk.visited) :
    visitReferenceNode graph maxExpansions levels node walk = .ok walk := by
  cases levels <;> rw [visitReferenceNode, if_pos isVisited]

theorem visitReferenceNode_eq_ok (isNew : node ∉ walk.visited) :
    visitReferenceNode graph maxExpansions (levels + 1) node walk = .ok next ↔
      node ∉ walk.visiting ∧ saturatingAdd walk.expansionCount 1 ≤ maxExpansions ∧
        ∃ inner, (graph.edges node).foldlM
          (fun walk edge => visitReferenceNode graph maxExpansions levels edge walk)
            (walk.enter node) = .ok inner ∧ inner.leave node = next := by
  rw [visitReferenceNode, if_neg isNew]
  simp only [bind_eq_ok, reject_eq_ok, exists_const, Except.ok.injEq, Nat.not_lt]
  rfl

theorem mem_enter {target : String} :
    target ∈ (walk.enter node).visiting ↔ target ∈ walk.visiting ∨ target = node :=
  mem_set_insert_iff

theorem Searching.enter (searching : Searching graph maxExpansions walk)
    (isNew : node ∉ walk.visited) (notVisiting : node ∉ walk.visiting)
    (within : saturatingAdd walk.expansionCount 1 ≤ maxExpansions) :
    Searching graph maxExpansions (walk.enter node) := by
  refine ⟨searching.closed, searching.acyclic, fun target isVisiting => ?_, ?_, within⟩
  · rcases mem_enter.mp isVisiting with earlier | rfl
    · exact searching.apart target earlier
    · exact isNew
  · simp only [GraphWalk.enter, searching.counted, size_insert_new notVisiting, saturatingAdd]
    omega

theorem Searching.leave {inner : GraphWalk} (searching : Searching graph maxExpansions inner)
    (isNew : node ∉ walk.visited) (notVisiting : node ∉ walk.visiting)
    (searched : Searched graph (graph.edges node) (walk.enter node) inner) :
    Searching graph maxExpansions (inner.leave node) ∧
      Searched graph [node] walk (inner.leave node) := by
  have edges : ∀ target ∈ graph.edges node, target ∈ inner.visited := fun target edge =>
    (searched.visited target).mpr (.inr ⟨target, edge, .refl⟩)
  have isOpen : node ∈ inner.visiting := (searched.visiting node).mpr (mem_enter.mpr (.inr rfl))
  have size : inner.visiting.size = walk.visiting.size + 1 := by
    rw [searched.sameSize, GraphWalk.enter, size_insert_new notVisiting]
  have erased : (inner.visiting.erase node).size = walk.visiting.size := by
    rw [TreeSet.size_erase, if_pos, size, Nat.add_sub_cancel]
    exact isOpen
  have visited : ∀ target, target ∈ (inner.leave node).visited ↔
      target ∈ inner.visited ∨ target = node := fun target => mem_set_insert_iff
  have visiting : ∀ target, target ∈ (inner.leave node).visiting ↔
      target ≠ node ∧ target ∈ inner.visiting := by
    intro target
    rw [GraphWalk.leave, TreeSet.mem_erase, ne_eq, Std.compare_eq_iff_eq, eq_comm]
  refine ⟨⟨?_, ?_, ?_, ?_, searching.within⟩, fun target => ?_, fun target => ?_, erased⟩
  · intro other isVisited target edge
    rw [visited] at isVisited ⊢
    rcases isVisited with earlier | rfl
    · exact .inl (searching.closed other earlier target edge)
    · exact .inl (edges target edge)
  · intro other isVisited
    rcases (visited other).mp isVisited with earlier | rfl
    · exact searching.acyclic other earlier
    · exact ⟨_, fun target edge => searching.acyclic target (edges target edge)⟩
  · intro other isVisiting
    rcases (visiting other).mp isVisiting with ⟨different, isOther⟩
    rw [visited]
    exact not_or.mpr ⟨searching.apart other isOther, different⟩
  · have inserted := size_insert_new (searching.apart node isOpen)
    simp only [GraphWalk.leave, searching.counted, erased, inserted, size]
    congr 1
    omega
  · rw [visited, searched.visited, reachedFrom_singleton, reaches_iff, or_assoc,
      or_comm (a := node = target), eq_comm]
    rfl
  · rw [visiting, searched.visiting, mem_enter]
    constructor
    · rintro ⟨different, earlier | same⟩
      · exact earlier
      · exact absurd same different
    · intro earlier
      refine ⟨?_, .inl earlier⟩
      rintro rfl
      exact notVisiting earlier

/-- A node fits if nothing is entered twice on the way, and its edges fit one level below. -/
theorem fits_enter (isNew : node ∉ walk.visited) : Fits graph (levels + 1) [node] walk ↔
      node ∉ walk.visiting ∧ ¬ OnCycle graph.edges node ∧
        Fits graph levels (graph.edges node) (walk.enter node) := by
  have deeper : ∀ {target : String}, node ≠ target →
      ((∃ count < levels + 1, FirstFrom graph.edges target [node] count) ↔
        ∃ count < levels, FirstFrom graph.edges target (graph.edges node) count) := by
    intro target different
    simp only [firstFrom_into different]
    constructor
    · rintro ⟨_, below, count, rfl, found⟩
      exact ⟨count, Nat.lt_of_succ_lt_succ below, found⟩
    · rintro ⟨count, below, found⟩
      exact ⟨count + 1, Nat.succ_lt_succ below, count, rfl, found⟩
  constructor
  · intro fits
    have here := fits node isNew (reachedFrom_singleton.mpr .refl)
    refine ⟨here.1, here.2.1, fun target targetNew reached => ?_⟩
    have different : node ≠ target := by
      rintro rfl
      exact here.2.1 reached
    have known := fits target targetNew
      (reachedFrom_singleton.mpr (reaches_iff.mpr (.inr reached)))
    rw [deeper different] at known
    exact ⟨fun isOpen => (mem_enter.mp isOpen).elim known.1 different.symm, known.2⟩
  · rintro ⟨notVisiting, acyclic, fits⟩ target targetNew reached
    by_cases same : node = target
    · subst same
      exact ⟨notVisiting, acyclic, 0, Nat.succ_pos _, .here _⟩
    · rw [deeper same]
      rw [reachedFrom_singleton, reaches_iff] at reached
      have known := fits target targetNew (reached.resolve_left same)
      exact ⟨fun isOpen => known.1 (mem_enter.mpr (.inl isOpen)), known.2⟩

/-! ### What an accepted search has found -/

theorem searched_foldlM {visit : GraphWalk → String → Except SchemaError GraphWalk}
    (step : ∀ {walk next node}, Searching graph maxExpansions walk →
      visit walk node = .ok next → Searching graph maxExpansions next ∧
        Searched graph [node] walk next ∧ Fits graph levels [node] walk)
    (searching : Searching graph maxExpansions walk)
    (accepted : nodes.foldlM visit walk = .ok next) :
    Searching graph maxExpansions next ∧ Searched graph nodes walk next ∧
      Fits graph levels nodes walk := by
  induction nodes generalizing walk with
  | nil =>
    cases accepted
    exact ⟨searching, ⟨by simp [ReachedFrom], fun _ => Iff.rfl, rfl⟩, by simp [Fits, ReachedFrom]⟩
  | cons first rest induction =>
    rw [List.foldlM_cons, bind_eq_ok] at accepted
    rcases accepted with ⟨middle, isMiddle, isRest⟩
    rcases step searching isMiddle with ⟨middleSearching, now, nowFits⟩
    rcases induction middleSearching isRest with ⟨nextSearching, later, laterFits⟩
    exact ⟨nextSearching, now.trans later, now.fits_cons.mpr ⟨nowFits, laterFits⟩⟩

theorem visitReferenceNode_searched (searching : Searching graph maxExpansions walk)
    (accepted : visitReferenceNode graph maxExpansions levels node walk = .ok next) :
    Searching graph maxExpansions next ∧ Searched graph [node] walk next ∧
      Fits graph levels [node] walk := by
  induction levels generalizing node walk next with
  | zero =>
    rw [visitReferenceNode] at accepted
    split at accepted
    · next isVisited =>
        cases accepted
        exact ⟨searching, searching.visited isVisited⟩
    · cases accepted
  | succ levels induction =>
    by_cases isVisited : node ∈ walk.visited
    · rw [visitReferenceNode_visited isVisited] at accepted
      cases accepted
      exact ⟨searching, searching.visited isVisited⟩
    · rcases (visitReferenceNode_eq_ok isVisited).mp accepted with
        ⟨notVisiting, within, inner, isInner, rfl⟩
      rcases searched_foldlM induction (searching.enter isVisited notVisiting within) isInner
        with ⟨innerSearching, searched, fits⟩
      have left := innerSearching.leave isVisited notVisiting searched
      refine ⟨left.1, left.2, (fits_enter isVisited).mpr ⟨notVisiting, not_onCycle ?_, fits⟩⟩
      exact left.1.acyclic node ((left.2.visited node).mpr
        (.inr (reachedFrom_singleton.mpr .refl)))

/-! ### What the search accepts -/

def Covers (graph : ReferenceGraph) (reachable : TreeSet String) (nodes : List String)
    (walk : GraphWalk) : Prop :=
  ∀ target, target ∈ walk.visited ∨ target ∈ walk.visiting ∨ ReachedFrom graph.edges nodes target →
    target ∈ reachable

theorem Searched.covers (searched : Searched graph [first] walk middle)
    (covers : Covers graph reachable (first :: rest) walk) :
    Covers graph reachable rest middle := by
  intro target
  rw [searched.visited, searched.visiting, reachedFrom_singleton]
  rintro ((earlier | now) | isOpen | later)
  · exact covers target (.inl earlier)
  · exact covers target (.inr (.inr (reachedFrom_cons.mpr (.inl now))))
  · exact covers target (.inr (.inl isOpen))
  · exact covers target (.inr (.inr (reachedFrom_cons.mpr (.inr later))))

theorem foldlM_succeeds (step : ∀ {walk node}, Searching graph maxExpansions walk →
      Covers graph reachable [node] walk → Fits graph levels [node] walk →
        Succeeds (visitReferenceNode graph maxExpansions levels node walk))
    (searching : Searching graph maxExpansions walk) (covers : Covers graph reachable nodes walk)
    (fits : Fits graph levels nodes walk) : Succeeds (nodes.foldlM
      (fun walk node => visitReferenceNode graph maxExpansions levels node walk) walk) := by
  induction nodes generalizing walk with
  | nil => exact ⟨walk, rfl⟩
  | cons first rest induction =>
    have firstCovers : Covers graph reachable [first] walk := fun target known =>
      covers target (known.imp_right fun known => known.imp_right fun reached =>
        reachedFrom_cons.mpr (.inl (reachedFrom_singleton.mp reached)))
    rcases step searching firstCovers (fits_cons.mp fits).1 with ⟨middle, isMiddle⟩
    rcases visitReferenceNode_searched searching isMiddle with ⟨middleSearching, searched, _⟩
    rcases induction middleSearching (searched.covers covers) (searched.fits_cons.mp fits).2
      with ⟨next, isNext⟩
    exact ⟨next, by rw [List.foldlM_cons, isMiddle]; exact isNext⟩

theorem visitReferenceNode_succeeds (small : saturatingAdd 0 reachable.size ≤ maxExpansions)
    (searching : Searching graph maxExpansions walk) (covers : Covers graph reachable [node] walk)
    (fits : Fits graph levels [node] walk) :
    Succeeds (visitReferenceNode graph maxExpansions levels node walk) := by
  induction levels generalizing node walk with
  | zero =>
    by_cases isVisited : node ∈ walk.visited
    · exact ⟨walk, visitReferenceNode_visited isVisited⟩
    · rcases fits node isVisited (reachedFrom_singleton.mpr .refl) with ⟨_, _, count, below, _⟩
      exact absurd below (Nat.not_lt_zero count)
  | succ levels induction =>
    by_cases isVisited : node ∈ walk.visited
    · exact ⟨walk, visitReferenceNode_visited isVisited⟩
    rcases (fits_enter isVisited).mp fits with ⟨notVisiting, _, below⟩
    have entered : Covers graph reachable (graph.edges node) (walk.enter node) := by
      rintro target (earlier | isOpen | reached)
      · exact covers target (.inl earlier)
      · rcases mem_enter.mp isOpen with isOpen | rfl
        · exact covers target (.inr (.inl isOpen))
        · exact covers target (.inr (.inr (reachedFrom_singleton.mpr .refl)))
      · exact covers target
          (.inr (.inr (reachedFrom_singleton.mpr (reaches_iff.mpr (.inr reached)))))
    have within : saturatingAdd walk.expansionCount 1 ≤ maxExpansions := by
      have size : walk.visited.size + (walk.visiting.insert node).size ≤ reachable.size := by
        refine size_add_le (fun target isOpen => ?_) fun target known =>
          entered target (known.imp_right .inl)
        rcases mem_set_insert_iff.mp isOpen with earlier | rfl
        · exact searching.apart target earlier
        · exact isVisited
      rw [size_insert_new notVisiting] at size
      rw [searching.counted]
      simp only [saturatingAdd] at small ⊢
      omega
    rcases foldlM_succeeds induction (searching.enter isVisited notVisiting within) entered below
      with ⟨inner, isInner⟩
    exact ⟨_, (visitReferenceNode_eq_ok isVisited).mpr
      ⟨notVisiting, within, inner, isInner, rfl⟩⟩

theorem searching_start : Searching graph maxExpansions ⟨∅, ∅, 0⟩ := by
  refine ⟨?_, ?_, ?_, rfl, Nat.zero_le _⟩
  all_goals exact fun _ member => nomatch member

end Search

/-! ## The graph of a document -/

section Documents

variable {root : Json} {defs : TreeSet String} {limits : SchemaLimits} {graph : ReferenceGraph}

def graphNodes (defs : TreeSet String) : List String := "#" :: defs.toList

def FewReached (graph : ReferenceGraph) (nodes : List String) (limits : SchemaLimits) : Prop :=
  ∃ reachable : TreeSet String,
    (∀ target, target ∈ reachable ↔ ReachedFrom graph.edges nodes target) ∧
      saturatingAdd 0 reachable.size ≤
        saturatingMul (max limits.maxSchemaDepth 1) (max nodes.length 1)

/-- The nodes that the graph leads to are on no cycle, the search finds each of them on a
path that is not too long, and there are not too many. -/
structure Searchable (graph : ReferenceGraph) (nodes : List String) (limits : SchemaLimits) :
    Prop where
  acyclic : ∀ target, ReachedFrom graph.edges nodes target → ¬ OnCycle graph.edges target
  early : ∀ target, ReachedFrom graph.edges nodes target →
    ∃ count ≤ limits.maxSchemaDepth, FirstFrom graph.edges target nodes count
  few : FewReached graph nodes limits

theorem validateLocalReferenceGraph_eq_ok :
    validateLocalReferenceGraph root defs limits = .ok () ↔
      ∃ graph, (graphNodes defs).mapM (nodeReferences root) = .ok graph ∧
        Searchable graph (graphNodes defs) limits := by
  simp only [validateLocalReferenceGraph, bind_eq_ok, and_true]
  refine exists_congr fun graph => and_congr_right fun _ => ?_
  have isStart : ∀ target : String, target ∉ (∅ : TreeSet String) := by simp
  constructor
  · rintro ⟨final, isFinal⟩
    rcases searched_foldlM visitReferenceNode_searched searching_start isFinal with
      ⟨searching, searched, fits⟩
    refine ⟨fun target reached => (fits target (isStart target) reached).2.1,
      fun target reached => ?_, final.visited, fun target => ?_, ?_⟩
    · rcases fits target (isStart target) reached with ⟨_, _, count, below, found⟩
      exact ⟨count, Nat.le_of_lt_succ below, found⟩
    · rw [searched.visited]
      exact or_iff_right (isStart target)
    · have counted := searching.counted
      rw [searched.sameSize] at counted
      exact counted ▸ searching.within
  · rintro ⟨acyclic, early, reachable, isReachable, small⟩
    refine foldlM_succeeds (visitReferenceNode_succeeds small) searching_start ?_ ?_
    · rintro target (member | member | reached)
      · cases member
      · cases member
      · exact (isReachable target).mpr reached
    · intro target _ reached
      rcases early target reached with ⟨count, atMost, first⟩
      exact ⟨isStart target, acyclic target reached, count, Nat.lt_succ_of_le atMost, first⟩

def link (name : String) : Json := .object [("$ref", .string ("#/$defs/" ++ name))]

def forwardChain : Json :=
  .object [("$defs", .object [("a", link "b"), ("b", link "c"), ("c", link "d"), ("d", link "e"),
    ("e", link "f"), ("f", .object [])])]

def backwardChain : Json :=
  .object [("$defs", .object [("a", .object []), ("b", link "a"), ("c", link "b"), ("d", link "c"),
    ("e", link "d"), ("f", link "e")])]

def fourLevels : SchemaLimits := { SchemaLimits.official with maxSchemaDepth := 4 }

def Refers (root : Json) (defs : TreeSet String) (target source : String) : Prop :=
  source ∈ defs ∧ ∃ value, Pointer.resolveLocalRef root source = some value ∧
    Mentions value target

theorem lookup_nodeReferences {root : Json} {nodes : List String} {graph : ReferenceGraph}
    (isGraph : nodes.mapM (nodeReferences root) = .ok graph) {node : String}
    (isNode : node ∈ nodes) : ∃ references, graph.lookup node = some references ∧
      nodeReferences root node = .ok (node, references) := by
  induction nodes generalizing graph with
  | nil => cases isNode
  | cons first rest induction =>
    rw [List.mapM_cons] at isGraph
    simp only [bind_eq_ok, pure_eq_ok] at isGraph
    rcases isGraph with ⟨entry, isFirst, others, isOthers, rfl⟩
    have named : entry.1 = first := by
      simp only [nodeReferences, bind_eq_ok, Except.ok.injEq] at isFirst
      rcases isFirst with ⟨_, _, _, _, rfl⟩
      rfl
    rcases entry with ⟨name, references⟩
    cases named
    by_cases same : node = name
    · subst same
      exact ⟨references, List.lookup_cons_self, isFirst⟩
    · rw [List.lookup_cons, beq_false_of_ne same]
      exact induction isOthers ((List.mem_cons.mp isNode).resolve_left same)

/-- No definition of an accepted document refers to itself, directly or through others. -/
theorem acc_refers (accepted : validateLocalReferenceGraph root defs limits = .ok ()) :
    ∀ reference ∈ defs, Acc (Refers root defs) reference := by
  simp only [validateLocalReferenceGraph, bind_eq_ok, and_true] at accepted
  rcases accepted with ⟨graph, isGraph, final, isFinal⟩
  have searched := searched_foldlM visitReferenceNode_searched searching_start isFinal
  have isNode : ∀ {node}, node ∈ defs → node ∈ graphNodes defs := fun member =>
    List.mem_cons_of_mem _ (TreeSet.mem_toList.mpr member)
  intro reference isDef
  have accessible := searched.1.acyclic reference
    ((searched.2.1.visited reference).mpr (.inr ⟨reference, isNode isDef, .refl⟩))
  refine Subrelation.accessible ?_ accessible
  rintro target source ⟨sourceDef, value, resolved, mentions⟩
  rcases lookup_nodeReferences isGraph (isNode sourceDef) with ⟨references, isEntry, collected⟩
  have notHash : source ≠ "#" := by
    rintro rfl
    cases resolved
  simp only [nodeReferences, nodeSchema, notHash, if_false, bind_eq_ok, okOr_eq_ok, resolved,
    Except.ok.injEq, Prod.mk.injEq, true_and, exists_eq_right, Option.some.injEq,
    exists_eq_left'] at collected
  have inside := (collectSemanticReferences_collects value collected).2 target mentions
  rw [ReferenceGraph.Edge, ReferenceGraph.edges, isEntry]
  exact TreeSet.mem_toList.mpr inside

end Documents

end ToolSchema

end Philo
