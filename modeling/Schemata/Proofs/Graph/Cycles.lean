import Mathlib.Data.List.Chain
import Schemata.Proofs.Graph.Search

/-! What the search for cycles reports. Every path is a cycle of the graph that meets no node twice,
no two of them run over the same nodes, and where none is reported the graph has no cycle. -/

namespace Schemata.Graph

/-- A cycle as it is reported: a path along edges that ends where it starts and meets no other node
twice. -/
structure IsCycle (g : Graph) (cycle : List String) : Prop where
  edges : cycle.IsChain g.Edge
  turns : ∃ node between, cycle = node :: (between ++ [node])
  simple : cycle.dropLast.Nodup

/-! ### What is reported is a cycle -/

theorem dropWhile_append_cons {before : List String} (absent : next ∉ before)
    (after : List String) :
    (before ++ next :: after).dropWhile (· != next) = next :: after := by
  rw [List.dropWhile_append_of_pos]
  · simp
  · intro name earlier
    simpa using fun same : name = next => absent (same ▸ earlier)

theorem closing_cycle {g : Graph} {path : List String}
    (edges : (path ++ [next]).IsChain g.Edge) (simple : path.Nodup) (member : next ∈ path) :
    g.IsCycle (path.dropWhile (· != next) ++ [next]) := by
  obtain ⟨before, after, split, absent⟩ := List.eq_append_cons_of_mem member
  have cut : path.dropWhile (· != next) = next :: after := by
    rw [split, dropWhile_append_cons absent]
  rw [cut]
  have suffix : (next :: after ++ [next]) <:+ path ++ [next] := ⟨before, by simp [split]⟩
  refine ⟨edges.suffix suffix, ⟨next, after, rfl⟩, ?_⟩
  rw [List.dropLast_concat]
  exact simple.sublist (split ▸ List.sublist_append_right before (next :: after))

private theorem record_sound {g : Graph} {s : Search} (known : ∀ cycle ∈ s.cycles, g.IsCycle cycle)
    (found : g.IsCycle cycle) : ∀ other ∈ (s.record cycle).cycles, g.IsCycle other := by
  unfold Search.record
  split
  · exact known
  · intro other member
    rcases List.mem_append.mp member with old | new
    · exact known other old
    · exact List.mem_singleton.mp new ▸ found

/-- A search that stands at the end of a path without repetitions adds cycles only. -/
theorem Explores.sound {g : Graph} (explores : g.Explores path s names final)
    (edges : ∀ next ∈ names, (path ++ [next]).IsChain g.Edge) (simple : path.Nodup)
    (known : ∀ cycle ∈ s.cycles, g.IsCycle cycle) : ∀ cycle ∈ final.cycles, g.IsCycle cycle := by
  induction explores with
  | finished => exact known
  | closes onPath _ ih =>
    obtain ⟨back, later⟩ := List.forall_mem_cons.mp edges
    exact ih later simple (record_sound known (closing_cycle back simple onPath))
  | known _ _ _ ih => exact ih (List.forall_mem_cons.mp edges).2 simple known
  | @enters path next s middle names final offPath _ _ _ ihInside ih =>
    obtain ⟨here, later⟩ := List.forall_mem_cons.mp edges
    have below : ∀ target ∈ g.targets next, (path ++ [next] ++ [target]).IsChain g.Edge := by
      intro target points
      exact here.append (.singleton target) (by simpa [Edge] using points)
    have longer := simple.append (List.nodup_singleton next) (by simpa using offPath)
    exact ih later simple (ihInside below longer known)

theorem isCycle_of_mem_cycles (g : Graph) : ∀ cycle ∈ g.cycles, g.IsCycle cycle :=
  g.explores_search.sound (fun node _ => .singleton node) List.nodup_nil (by simp)

/-! ### No two reports run over the same nodes -/

theorem sameNodes_iff (a b : List String) : sameNodes a b = true ↔ ∀ node, node ∈ a ↔ node ∈ b := by
  simp only [sameNodes, Bool.and_eq_true, List.all_eq_true, List.contains_iff_mem]
  exact ⟨fun ⟨left, right⟩ node => ⟨left node, right node⟩,
    fun same => ⟨fun node => (same node).mp, fun node => (same node).mpr⟩⟩

/-- Cycles of which no two run over the same nodes. -/
def Distinct (cycles : List (List String)) : Prop :=
  cycles.Pairwise fun one other => ¬ ∀ node, node ∈ one ↔ node ∈ other

private theorem record_distinct {s : Search} (distinct : Distinct s.cycles) (cycle : List String) :
    Distinct (s.record cycle).cycles := by
  unfold Search.record
  split
  · exact distinct
  · rename_i unknown
    refine List.pairwise_append.mpr ⟨distinct, List.pairwise_singleton _ _,
      fun one known other new same => ?_⟩
    obtain rfl := List.mem_singleton.mp new
    exact unknown (List.any_eq_true.mpr
      ⟨one, known, (sameNodes_iff _ _).mpr fun node => (same node).symm⟩)

theorem Explores.distinct {g : Graph} (explores : g.Explores path s names final)
    (distinct : Distinct s.cycles) : Distinct final.cycles := by
  induction explores with
  | finished => exact distinct
  | closes _ _ ih => exact ih (record_distinct distinct _)
  | known _ _ _ ih => exact ih distinct
  | enters _ _ _ _ ihInside ih => exact ih (ihInside distinct)

theorem cycles_distinct (g : Graph) : Distinct g.cycles := g.explores_search.distinct .nil

/-! ### Where nothing is reported there is no cycle -/

/-- A search that stands at the end of a path: the nodes that it has visited are those of the path
and those that it has settled. -/
structure Tracks (g : Graph) (path done : List String) (s : Search) : Prop where
  settled : g.Settled done
  visited : ∀ name, name ∈ s.visited ↔ name ∈ path ∨ name ∈ done
  apart : ∀ name ∈ path, name ∉ done

private theorem record_reports (s : Search) (cycle : List String) :
    (s.record cycle).cycles ≠ [] := by
  unfold Search.record
  split
  · rename_i known
    obtain ⟨other, member, _⟩ := List.any_eq_true.mp known
    exact List.ne_nil_of_mem member
  · simp

theorem Explores.quiet {g : Graph} (explores : g.Explores path s names final)
    (quiet : final.cycles = []) :
    s.cycles = [] := by
  induction explores with
  | finished => exact quiet
  | closes _ _ ih => exact absurd (ih quiet) (record_reports _ _)
  | known _ _ _ ih => exact ih quiet
  | enters _ _ _ _ ihInside ih => exact ihInside (ih quiet)

private theorem Tracks.enter {g : Graph} {path done : List String} {s : Search}
    (tracks : g.Tracks path done s) (fresh : node ∉ s.visited) :
    g.Tracks (path ++ [node]) done { s with visited := node :: s.visited } := by
  refine ⟨tracks.settled, fun name => ?_, fun name member => ?_⟩
  · simp only [List.mem_cons, List.mem_append, tracks.visited, List.not_mem_nil, or_false]
    rw [← or_assoc, or_comm (a := name = node)]
  · rcases List.mem_append.mp member with earlier | last
    · exact tracks.apart name earlier
    · exact fun inside =>
        fresh ((tracks.visited node).mpr (.inr (List.mem_singleton.mp last ▸ inside)))

private theorem Tracks.leave {g : Graph} {path settled : List String} {s : Search}
    (left : g.Tracks (path ++ [node]) settled s) (simple : (path ++ [node]).Nodup)
    (reached : ∀ next ∈ g.targets node, next ∈ settled) : g.Tracks path (node :: settled) s := by
  refine ⟨.cons (left.apart node (by simp)) reached left.settled, fun name => ?_,
    fun name member inside => ?_⟩
  · rw [left.visited]
    simp only [List.mem_append, List.mem_cons, List.not_mem_nil, or_false, or_assoc]
  · rcases List.mem_cons.mp inside with same | deeper
    · exact (List.nodup_append.mp simple).2.2 name member node (by simp) same
    · exact left.apart name (List.mem_append_left _ member) deeper

/-- A search that reports nothing settles the names that it goes through. -/
theorem Explores.settles {g : Graph} (explores : g.Explores path s names final)
    (tracks : g.Tracks path done s) (simple : path.Nodup) (quiet : final.cycles = []) :
    ∃ more, g.Tracks path more final ∧ (∀ next ∈ names, next ∈ more) ∧ done ⊆ more := by
  induction explores generalizing done with
  | finished => exact ⟨done, tracks, by simp, fun _ member => member⟩
  | closes _ rest _ => exact absurd (rest.quiet quiet) (record_reports _ _)
  | @known path next s names final offPath seen _ ih =>
    have settled : next ∈ done := ((tracks.visited next).mp seen).resolve_left offPath
    obtain ⟨more, tracked, others, kept⟩ := ih tracks simple quiet
    exact ⟨more, tracked, List.forall_mem_cons.mpr ⟨kept settled, others⟩, kept⟩
  | @enters path next s middle names final offPath fresh _ rest ihInside ih =>
    have longer : (path ++ [next]).Nodup :=
      simple.append (List.nodup_singleton next) (by simpa using offPath)
    obtain ⟨inside, left, reached, kept⟩ := ihInside (tracks.enter fresh) longer (rest.quiet quiet)
    obtain ⟨more, tracked, others, carried⟩ := ih (left.leave longer reached) simple quiet
    refine ⟨more, tracked, List.forall_mem_cons.mpr ⟨carried (List.mem_cons_self ..), others⟩, ?_⟩
    exact fun _ earlier => carried (List.mem_cons_of_mem _ (kept earlier))

private theorem walk_of_chain {between : List String}
    (chain : (node :: (between ++ [goal])).IsChain edge) :
    Walk edge (between.length + 1) node goal := by
  induction between generalizing node with
  | nil => exact .single (by simpa using chain)
  | cons next rest ih =>
    obtain ⟨first, later⟩ := List.isChain_cons_cons.mp chain
    exact .step first (ih later)

/-- The search reports nothing exactly for graphs without cycles. -/
theorem cycles_eq_nil_iff (g : Graph) : g.cycles = [] ↔ Acyclic g.Edge := by
  constructor
  · intro quiet
    have start : g.Tracks [] [] ⟨[], []⟩ := ⟨.nil, by simp, by simp⟩
    obtain ⟨done, final, complete, -⟩ := g.explores_search.settles start List.nodup_nil quiet
    exact final.settled.acyclic complete
  · intro acyclic
    refine List.eq_nil_iff_forall_not_mem.mpr fun cycle member => ?_
    obtain ⟨edges, ⟨node, between, shape⟩, _⟩ := isCycle_of_mem_cycles g cycle member
    exact acyclic node between.length (walk_of_chain (shape ▸ edges))

end Schemata.Graph
