import Schemata.Graph.Chains
import Schemata.Proofs.Graph.Walk
import Schemata.Proofs.Keyed

/-! Chain lengths. In a graph without cycles every node is settled once, with the length of the
longest walk that starts at it. -/

namespace Schemata

/-- The number of edges on the longest walk from a name. -/
structure Longest (edge : String → String → Prop) (node : String) (length : Nat) : Prop where
  attained : ∃ goal, Walk edge length node goal
  bound : ∀ steps goal, Walk edge steps node goal → steps ≤ length

theorem Longest.unique (first : Longest edge node m) (second : Longest edge node n) : m = n := by
  obtain ⟨firstGoal, firstWalk⟩ := first.attained
  obtain ⟨secondGoal, secondWalk⟩ := second.attained
  exact Nat.le_antisymm (second.bound m firstGoal firstWalk) (first.bound n secondGoal secondWalk)

namespace Graph

/-- Known lengths that are right and belong to nodes. -/
structure Measures (g : Graph) (known : ChainLengths) : Prop where
  exact : ∀ node length, (node, length) ∈ known → Longest g.Edge node length
  listed : ∀ node length, (node, length) ∈ known → node ∈ g.nodes

/-- More lengths are known than before, that of a name among them. -/
structure Learns (g : Graph) (known more : ChainLengths) (names : List String) : Prop where
  measures : g.Measures more
  kept : known <+: more
  found : ∀ name ∈ names, (more.lookup name).isSome = true

private theorem lookup_isSome_of_prefix {known more : ChainLengths} (kept : known <+: more)
    (found : (known.lookup node).isSome = true) : (more.lookup node).isSome = true := by
  obtain ⟨rest, rfl⟩ := kept
  simp [List.lookup_append, found]

private theorem foldl_max (value : String → Nat) (names : List String) (start : Nat) :
    let top := names.foldl (fun longest next => max longest (value next)) start
    start ≤ top ∧ (∀ name ∈ names, value name ≤ top) ∧
      (top = start ∨ ∃ name ∈ names, top = value name) := by
  induction names generalizing start with
  | nil => simp
  | cons next rest ih =>
    obtain ⟨above, bound, source⟩ := ih (max start (value next))
    obtain ⟨startBelow, nextBelow⟩ := Nat.max_le.mp above
    refine ⟨startBelow, ?_, ?_⟩
    · intro name member
      rcases List.mem_cons.mp member with same | later
      · exact same ▸ nextBelow
      · exact bound name later
    · rcases source with same | ⟨name, member, same⟩
      · rcases Nat.le_total start (value next) with smaller | larger
        · exact .inr ⟨next, List.mem_cons_self .., same.trans (Nat.max_eq_right smaller)⟩
        · exact .inl (same.trans (Nat.max_eq_left larger))
      · exact .inr ⟨name, List.mem_cons_of_mem _ member, same⟩

/-- One more than the longest chain of the targets is the longest chain of the node. -/
theorem longest_chainOver {g : Graph} {known : ChainLengths} (measures : g.Measures known)
    (found : ∀ next ∈ g.targets node, (known.lookup next).isSome = true) :
    Longest g.Edge node (chainOver known (g.targets node)) := by
  have known' : ∀ next ∈ g.targets node, Longest g.Edge next ((known.lookup next).getD 0) := by
    intro next target
    obtain ⟨length, entry⟩ := Option.isSome_iff_exists.mp (found next target)
    simpa [entry] using measures.exact next length (Keyed.mem_of_lookup entry)
  obtain ⟨_, bound, source⟩ :=
    foldl_max (fun next => (known.lookup next).getD 0 + 1) (g.targets node) 0
  constructor
  · rcases source with empty | ⟨next, target, same⟩
    · exact ⟨node, by rw [chainOver, empty]; exact .here⟩
    · obtain ⟨goal, walk⟩ := (known' next target).attained
      exact ⟨goal, by rw [chainOver, same]; exact .step target walk⟩
  · intro steps goal walk
    cases walk with
    | here => exact Nat.zero_le _
    | @step _ next steps _ first rest =>
      have below := (known' next first).bound steps goal rest
      exact Nat.le_trans (Nat.add_le_add_right below 1) (bound next first)

/-- When every step of a fold learns its name, the fold learns all of them. -/
private theorem fold_learns {g : Graph} (settle : ChainLengths → String → ChainLengths)
    (names : List String)
    (step : ∀ known, ∀ name ∈ names, g.Measures known → g.Learns known (settle known name) [name])
    {known : ChainLengths} (measures : g.Measures known) :
    g.Learns known (names.foldl settle known) names := by
  induction names generalizing known with
  | nil => exact ⟨measures, List.prefix_rfl, by simp⟩
  | cons name rest ih =>
    have head := step known name (List.mem_cons_self ..) measures
    have tail := ih (fun known later member => step known later (List.mem_cons_of_mem _ member))
      head.measures
    refine ⟨tail.measures, head.kept.trans tail.kept, ?_⟩
    intro other member
    rcases List.mem_cons.mp member with same | later
    · exact lookup_isSome_of_prefix tail.kept (head.found other (by simp [same]))
    · exact tail.found other later

/-- Settling a node learns its length; the fuel lasts because every walk from the node is
shorter. -/
theorem settle_learns {g : Graph} (closed : g.Closed) (node : String) (listed : node ∈ g.nodes)
    (enough : ∀ steps goal, Walk g.Edge steps node goal → steps < fuel)
    {known : ChainLengths} (measures : g.Measures known) :
    g.Learns known (g.settle fuel known node) [node] := by
  induction fuel generalizing node known with
  | zero => exact absurd (enough 0 node .here) (Nat.lt_irrefl 0)
  | succ fuel ih =>
    by_cases found : (known.lookup node).isSome = true
    · rw [settle, if_pos found]
      exact ⟨measures, List.prefix_rfl, by simpa using found⟩
    · rw [settle, if_neg found]
      have below := fold_learns (g.settle fuel) (g.targets node)
        (fun known next target measures => ih next (closed node next target)
          (fun steps goal walk =>
            Nat.lt_of_succ_lt_succ (enough (steps + 1) goal (.step target walk)))
          measures) measures
      have longest := longest_chainOver below.measures below.found
      refine ⟨⟨?_, ?_⟩, below.kept.trans (List.prefix_append _ _), ?_⟩
      · intro other length member
        rcases List.mem_append.mp member with earlier | last
        · exact below.measures.exact other length earlier
        · obtain ⟨rfl, rfl⟩ := Prod.mk.inj (List.mem_singleton.mp last)
          exact longest
      · intro other length member
        rcases List.mem_append.mp member with earlier | last
        · exact below.measures.listed other length earlier
        · obtain ⟨rfl, rfl⟩ := Prod.mk.inj (List.mem_singleton.mp last)
          exact listed
      · simp [List.lookup_append]

theorem chainLengths_learns {g : Graph} (acyclic : Acyclic g.Edge) (closed : g.Closed) :
    g.Learns [] g.chainLengths g.nodes :=
  fold_learns _ g.nodes (fun _ node listed measures => settle_learns closed node listed
    (fun _ _ walk => Nat.lt_succ_of_le (length_le_of_walk acyclic walk)) measures)
    ⟨by simp, by simp⟩

theorem exists_mem_chainLengths {g : Graph} (acyclic : Acyclic g.Edge) (closed : g.Closed)
    (listed : node ∈ g.nodes) : ∃ length, (node, length) ∈ g.chainLengths := by
  have found := (chainLengths_learns acyclic closed).found node listed
  obtain ⟨length, entry⟩ := Option.isSome_iff_exists.mp found
  exact ⟨length, Keyed.mem_of_lookup entry⟩

/-- In a graph without cycles the nodes stand with the lengths of their longest chains. -/
theorem mem_chainLengths_iff {g : Graph} (acyclic : Acyclic g.Edge) (closed : g.Closed) :
    (node, length) ∈ g.chainLengths ↔ node ∈ g.nodes ∧ Longest g.Edge node length := by
  have measures := (chainLengths_learns acyclic closed).measures
  constructor
  · intro member
    exact ⟨measures.listed node length member, measures.exact node length member⟩
  · rintro ⟨listed, longest⟩
    obtain ⟨known, member⟩ := exists_mem_chainLengths acyclic closed listed
    exact (measures.exact node known member).unique longest ▸ member

end Graph

end Schemata
