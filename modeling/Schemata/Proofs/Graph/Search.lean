import Schemata.Graph.Cycles
import Schemata.Proofs.Graph.Walk

/-! The search for cycles without a count of steps. It comes to an end on every graph, with the
result of the counted search, since no path meets a node twice. -/

namespace Schemata.Graph

/-- What a visit does at one target of the last node of its path. -/
def explore (g : Graph) (fuel : Nat) (path : List String) (s : Search) (next : String) : Search :=
  if path.contains next then s.record (path.dropWhile (· != next) ++ [next])
  else if s.visited.contains next then s
  else g.visit fuel path s next

theorem visit_succ (g : Graph) (fuel : Nat) (path : List String) (s : Search) (node : String) :
    g.visit (fuel + 1) path s node =
      (g.targets node).foldl (g.explore fuel (path ++ [node]))
        { s with visited := node :: s.visited } := rfl

/-- A target closes a cycle, or was visited before and is left alone, or is visited now. -/
theorem explore_cases (g : Graph) (fuel : Nat) (path : List String) (s : Search) (next : String) :
    (next ∈ path ∧ g.explore fuel path s next = s.record (path.dropWhile (· != next) ++ [next])) ∨
    (next ∉ path ∧ next ∈ s.visited ∧ g.explore fuel path s next = s) ∨
    (next ∉ path ∧ next ∉ s.visited ∧ g.explore fuel path s next = g.visit fuel path s next) := by
  by_cases onPath : next ∈ path
  · exact .inl ⟨onPath, by simp [explore, onPath]⟩
  · by_cases seen : next ∈ s.visited
    · exact .inr (.inl ⟨onPath, seen, by simp [explore, onPath, seen]⟩)
    · exact .inr (.inr ⟨onPath, seen, by simp [explore, onPath, seen]⟩)

/-- Goes through names at the end of a path, one after the other: each closes a cycle, or is known,
or is entered before the search goes on. -/
inductive Explores (g : Graph) : List String → Search → List String → Search → Prop where
  | finished : Explores g path s [] s
  | closes (onPath : next ∈ path)
      (rest : Explores g path (s.record (path.dropWhile (· != next) ++ [next])) names final) :
      Explores g path s (next :: names) final
  | known (offPath : next ∉ path) (seen : next ∈ s.visited) (rest : Explores g path s names final) :
      Explores g path s (next :: names) final
  | enters (offPath : next ∉ path) (fresh : next ∉ s.visited)
      (inside : Explores g (path ++ [next]) { s with visited := next :: s.visited }
        (g.targets next) middle)
      (rest : Explores g path middle names final) : Explores g path s (next :: names) final

theorem Explores.unique {g : Graph} (one : g.Explores path s names final)
    (other : g.Explores path s names final') : final = final' := by
  induction one generalizing final' with
  | finished =>
    cases other
    rfl
  | closes onPath _ ih =>
    cases other with
    | closes _ rest => exact ih rest
    | known offPath _ _ | enters offPath _ _ _ => exact absurd onPath offPath
  | known offPath seen _ ih =>
    cases other with
    | closes onPath _ => exact absurd onPath offPath
    | known _ _ rest => exact ih rest
    | enters _ fresh _ _ => exact absurd seen fresh
  | enters offPath fresh _ _ ihInside ih =>
    cases other with
    | closes onPath _ => exact absurd onPath offPath
    | known _ seen _ => exact absurd seen fresh
    | enters _ _ inside rest =>
      obtain rfl := ihInside inside
      exact ih rest

private theorem fold_explores {g : Graph} {path : List String} (names : List String)
    (below : ∀ s, ∀ next ∈ names, next ∉ path → g.Explores (path ++ [next])
      { s with visited := next :: s.visited } (g.targets next) (g.visit fuel path s next))
    (s : Search) : g.Explores path s names (names.foldl (g.explore fuel path) s) := by
  induction names generalizing s with
  | nil => exact .finished
  | cons next rest ih =>
    have later := ih fun s name member => below s name (List.mem_cons_of_mem _ member)
    rw [List.foldl_cons]
    rcases g.explore_cases fuel path s next with
      ⟨onPath, result⟩ | ⟨offPath, seen, result⟩ | ⟨offPath, fresh, result⟩
    · rw [result]
      exact .closes onPath (later _)
    · rw [result]
      exact .known offPath seen (later s)
    · rw [result]
      exact .enters offPath fresh (below s next (List.mem_cons_self ..) offPath) (later _)

/-- The fuel of a visit lasts because no path is longer than the graph. -/
theorem visit_explores {g : Graph} {path : List String} (enough : g.length < fuel + path.length)
    (listed : path ⊆ g.nodes) (simple : (path ++ [node]).Nodup) (s : Search) :
    g.Explores (path ++ [node]) { s with visited := node :: s.visited } (g.targets node)
      (g.visit fuel path s node) := by
  induction fuel generalizing path s node with
  | zero =>
    have bound := (List.nodup_append.mp simple).1.length_le_of_subset listed
    simp only [nodes, List.length_map] at bound
    omega
  | succ fuel ih =>
    rw [visit_succ]
    refine fold_explores _ (fun s next target offPath => ih ?_ ?_ ?_ s) _
    · simp only [List.length_append, List.length_singleton]
      omega
    · exact List.append_subset.mpr ⟨listed, by simpa using mem_nodes_of_edge target⟩
    · exact simple.append (List.nodup_singleton next) (by simpa using offPath)

private theorem search_eq (g : Graph) :
    g.search = g.nodes.foldl (g.explore (g.length + 1) []) ⟨[], []⟩ := by
  have same : g.explore (g.length + 1) [] =
      fun s node => if s.visited.contains node then s else g.visit (g.length + 1) [] s node := by
    funext s node
    simp [explore]
  rw [search, same]

theorem explores_search (g : Graph) : g.Explores [] ⟨[], []⟩ g.nodes g.search := by
  rw [search_eq]
  refine fold_explores _ (fun s next _ _ => ?_) _
  exact visit_explores (by simp) (List.nil_subset _) (List.nodup_singleton next) s

/-- The search ends, and with nothing but what the counted search finds. -/
theorem explores_iff (g : Graph) : g.Explores [] ⟨[], []⟩ g.nodes final ↔ final = g.search :=
  ⟨fun explores => explores.unique g.explores_search, fun same => same ▸ g.explores_search⟩

end Schemata.Graph
