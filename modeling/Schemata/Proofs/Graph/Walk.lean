import Mathlib.Data.List.Nodup
import Schemata.Graph.Basic
import Schemata.Proofs.Keyed

/-! Walks along the edges between names, counted in edges. A walk with more edges than there are
nodes to leave comes to a cycle, so where no walk comes back to its start every walk is shorter. -/

namespace Schemata

/-- A walk from one name to another, indexed by its number of edges. -/
inductive Walk (edge : String → String → Prop) : Nat → String → String → Prop where
  | here : Walk edge 0 node node
  | step (first : edge node next) (rest : Walk edge steps next goal) :
      Walk edge (steps + 1) node goal

/-- No walk with an edge in it comes back to where it started. -/
def Acyclic (edge : String → String → Prop) : Prop :=
  ∀ node steps, ¬ Walk edge (steps + 1) node node

/-- A walk leads to a name from which a walk with an edge in it comes back. -/
def ReachesCycle (edge : String → String → Prop) (node : String) : Prop :=
  ∃ steps goal hops, Walk edge steps node goal ∧ Walk edge (hops + 1) goal goal

theorem Acyclic.not_reachesCycle (acyclic : Acyclic edge) : ¬ ReachesCycle edge node := by
  rintro ⟨_, goal, hops, _, back⟩
  exact acyclic goal hops back

theorem Walk.single (edge : rel start goal) : Walk rel 1 start goal := .step edge .here

theorem Walk.trans (first : Walk edge steps start middle) (second : Walk edge hops middle goal) :
    Walk edge (hops + steps) start goal := by
  induction first with
  | here => exact second
  | step edge _ ih => exact .step edge (ih second)

theorem Walk.mono (included : ∀ {node next}, edge node next → wider node next)
    (walk : Walk edge steps start goal) : Walk wider steps start goal := by
  induction walk with
  | here => exact .here
  | step first _ ih => exact .step (included first) ih

theorem Acyclic.mono (acyclic : Acyclic wider)
    (included : ∀ {node next}, edge node next → wider node next) : Acyclic edge :=
  fun node steps walk => acyclic node steps (walk.mono included)

/-- A set of names that no edge leaves keeps every walk that starts in it. -/
theorem Walk.stays {inside : String → Prop}
    (closed : ∀ node next, inside node → edge node next → inside next)
    (walk : Walk edge steps start goal) (begins : inside start) : inside goal := by
  induction walk with
  | here => exact begins
  | step first _ ih => exact ih (closed _ _ begins first)

/-- The names that a walk leaves, in order; from each of them the walk goes on to all later ones. -/
theorem Walk.departures (walk : Walk edge steps start goal) :
    ∃ left : List String, left.length = steps ∧
      (∀ name ∈ left, (∃ next, edge name next) ∧ ∃ hops, Walk edge hops start name) ∧
      left.Pairwise fun earlier later => ∃ hops, Walk edge (hops + 1) earlier later := by
  induction walk with
  | here => exact ⟨[], rfl, by simp, .nil⟩
  | @step start next steps goal first rest ih =>
    obtain ⟨left, count, reached, ordered⟩ := ih
    have onward : ∀ name ∈ left, ∃ hops, Walk edge (hops + 1) start name := by
      intro name member
      obtain ⟨hops, walk⟩ := (reached name member).2
      exact ⟨hops, .step first walk⟩
    refine ⟨start :: left, congrArg (· + 1) count, ?_, .cons onward ordered⟩
    intro name member
    cases member with
    | head => exact ⟨⟨next, first⟩, 0, .here⟩
    | tail _ later =>
      obtain ⟨hops, walk⟩ := onward name later
      exact ⟨(reached name later).1, hops + 1, walk⟩

namespace Graph

/-- The edges of a graph. -/
def Edge (g : Graph) (node next : String) : Prop := next ∈ g.targets node

/-- Everything that a node points at is a node too. -/
def Closed (g : Graph) : Prop := ∀ node next, g.Edge node next → next ∈ g.nodes

theorem exists_entry_of_edge {g : Graph} (edge : g.Edge node next) :
    ∃ targets, (node, targets) ∈ g ∧ next ∈ targets := by
  unfold Edge targets at edge
  cases found : g.lookup node with
  | none => simp [found] at edge
  | some targets => exact ⟨targets, Keyed.mem_of_lookup found, by simpa [found] using edge⟩

theorem edge_iff_of_entry {g : Graph} {nexts : List String} (distinct : g.nodes.Nodup)
    (entry : (node, nexts) ∈ g) : g.Edge node next ↔ next ∈ nexts := by
  rw [Edge, targets, Keyed.lookup_of_mem distinct entry, Option.getD_some]

theorem mem_nodes_of_edge {g : Graph} (edge : g.Edge node next) : node ∈ g.nodes := by
  obtain ⟨targets, entry, -⟩ := exists_entry_of_edge edge
  exact List.mem_map.mpr ⟨(node, targets), entry, rfl⟩

theorem reachesCycle_of_walk {g : Graph} (walk : Walk g.Edge steps start goal)
    (long : g.length < steps) : ReachesCycle g.Edge start := by
  obtain ⟨left, count, reached, ordered⟩ := walk.departures
  have nodes : left ⊆ g.nodes := by
    intro name member
    obtain ⟨next, edge⟩ := (reached name member).1
    exact mem_nodes_of_edge edge
  have repeated : ¬ left.Nodup := by
    intro distinct
    have bound : left.length ≤ g.nodes.length := distinct.length_le_of_subset nodes
    rw [count, Graph.nodes, List.length_map] at bound
    exact Nat.not_le_of_lt long bound
  by_contra unreached
  refine repeated (ordered.imp_of_mem fun {earlier later} member _ onward same => unreached ?_)
  obtain ⟨hops, back⟩ := onward
  obtain ⟨before, approach⟩ := (reached earlier member).2
  exact ⟨before, earlier, hops, approach, same ▸ back⟩

theorem length_le_of_walk {g : Graph} (acyclic : Acyclic g.Edge)
    (walk : Walk g.Edge steps start goal) : steps ≤ g.length := by
  by_contra long
  exact acyclic.not_reachesCycle (reachesCycle_of_walk walk (Nat.lt_of_not_le long))

/-- Nodes that stand behind everything that they point at, the last one first. -/
inductive Settled (g : Graph) : List String → Prop where
  | nil : Settled g []
  | cons (fresh : node ∉ done) (below : ∀ next, g.Edge node next → next ∈ done)
      (rest : Settled g done) : Settled g (node :: done)

theorem Settled.closed {g : Graph} (settled : g.Settled done) (member : node ∈ done)
    (edge : g.Edge node next) : next ∈ done := by
  induction settled with
  | nil => simp at member
  | @cons latest done fresh below rest ih =>
    rcases List.mem_cons.mp member with same | earlier
    · subst node
      exact List.mem_cons_of_mem _ (below next edge)
    · exact List.mem_cons_of_mem _ (ih earlier)

/-- No walk comes back to a settled node: what the node points at was settled without it. -/
theorem Settled.no_return {g : Graph} (settled : g.Settled done) (member : node ∈ done) :
    ¬ Walk g.Edge (steps + 1) node node := by
  intro walk
  induction settled with
  | nil => simp at member
  | @cons latest done fresh below rest ih =>
    rcases List.mem_cons.mp member with same | earlier
    · subst node
      cases walk with
      | step first back =>
        exact fresh (back.stays (fun _ _ inside edge => rest.closed inside edge) (below _ first))
    · exact ih earlier

theorem Settled.not_reachesCycle {g : Graph} (settled : g.Settled done) (member : node ∈ done) :
    ¬ ReachesCycle g.Edge node := by
  rintro ⟨_, goal, hops, approach, back⟩
  have inside : goal ∈ done :=
    approach.stays (fun _ _ inside edge => settled.closed inside edge) member
  exact settled.no_return inside back

theorem Settled.acyclic {g : Graph} (settled : g.Settled done)
    (complete : ∀ node ∈ g.nodes, node ∈ done) : Acyclic g.Edge := by
  intro node steps walk
  cases walk with
  | step first back =>
    exact settled.no_return (complete node (mem_nodes_of_edge first)) (.step first back)

end Graph

end Schemata
