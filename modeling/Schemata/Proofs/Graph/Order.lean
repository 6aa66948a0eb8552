import Mathlib.Data.List.Induction
import Mathlib.Data.List.Nodup
import Mathlib.Data.List.Perm.Basic
import Schemata.Graph.Order
import Schemata.Proofs.Graph.Walk

/-! The dependency order lists every node once. Nodes are taken as long as one is ready, always the
first one; those from which a cycle can be reached are left, and in a graph without cycles none is,
so that every node comes after all that it points at. -/

namespace Schemata

/-- Every name stands behind all names that it points at. -/
def Ranked (edge : String → String → Prop) (order : List String) : Prop :=
  ∀ before node after, order = before ++ node :: after → ∀ next, edge node next → next ∈ before

namespace Graph

private theorem nodes_without {g : Graph} (distinct : g.nodes.Nodup) (name : String) :
    Graph.nodes (g.without name) = g.nodes.erase name := by
  rw [distinct.erase_eq_filter, nodes, nodes, Keyed.without, List.filter_map]
  rfl

private theorem length_without_lt {g : Graph} {entry : String × List String} (member : entry ∈ g) :
    (g.without entry.1).length < g.length :=
  List.length_filter_lt_length_iff_exists.mpr ⟨entry, member, by simp⟩

/-- The loop that takes nodes, run to its end. -/
inductive Takes : Graph → List String → List String → Prop where
  | blocked {pending : Graph} {taken : List String}
      (none : pending.find? (fun entry => entry.2.all taken.contains) = none) :
      Takes pending taken (taken ++ pending.nodes)
  | next {pending : Graph} {taken : List String}
      (found : pending.find? (fun entry => entry.2.all taken.contains) = some entry)
      (rest : Takes (pending.without entry.1) (taken ++ [entry.1]) result) :
        Takes pending taken result

/-- The loop comes to its end, since every turn leaves fewer nodes. -/
theorem takes_iff {pending : Graph} {taken : List String} (enough : pending.length ≤ fuel) :
    Takes pending taken result ↔ result = takeReady fuel pending taken := by
  induction fuel generalizing pending taken with
  | zero =>
    have empty : pending = [] := List.length_eq_zero_iff.mp (Nat.le_zero.mp enough)
    subst empty
    constructor
    · intro takes
      cases takes with
      | blocked _ => simp [takeReady, nodes]
      | next found _ => simp at found
    · intro same
      have ends : Takes [] taken (taken ++ nodes []) := .blocked rfl
      simpa [takeReady, nodes, same] using ends
  | succ fuel ih =>
    rw [takeReady]
    cases found : pending.find? fun entry => entry.2.all taken.contains with
    | none =>
      constructor
      · intro takes
        cases takes with
        | blocked _ => rfl
        | next other _ => simp [found] at other
      · rintro rfl
        exact .blocked found
    | some entry =>
      have shorter := length_without_lt (List.mem_of_find?_eq_some found)
      refine Iff.trans ⟨fun takes => ?_, .next found⟩ (ih (by omega))
      cases takes with
      | blocked none => simp [found] at none
      | next other rest =>
        obtain rfl := Option.some.inj (found.symm.trans other)
        exact rest

theorem nodes_proper (g : Graph) : g.proper.nodes = g.nodes := by
  simp [proper, nodes, Function.comp_def]

/-- Taking nodes loses none and repeats none. -/
theorem takeReady_perm {pending : Graph} (enough : pending.length ≤ fuel)
    (distinct : pending.nodes.Nodup) (taken : List String) :
    (takeReady fuel pending taken).Perm (taken ++ pending.nodes) := by
  induction fuel generalizing pending taken with
  | zero =>
    have empty : pending = [] := List.length_eq_zero_iff.mp (Nat.le_zero.mp enough)
    simp [takeReady, empty, nodes]
  | succ fuel ih =>
    rw [takeReady]
    split
    · rename_i entry found
      have member : entry.1 ∈ pending.nodes :=
        List.mem_map_of_mem (List.mem_of_find?_eq_some found)
      have rest := nodes_without distinct entry.1
      have shorter := length_without_lt (List.mem_of_find?_eq_some found)
      have next := ih (by omega) (rest ▸ distinct.erase entry.1) (taken ++ [entry.1])
      rw [rest, List.append_assoc] at next
      exact next.trans ((List.perm_cons_erase member).symm.append_left taken)
    · exact .refl _

theorem dependencyOrder_perm {g : Graph} (distinct : g.nodes.Nodup) :
    g.dependencyOrder.Perm g.nodes := by
  have order : g.dependencyOrder.Perm ([] ++ g.proper.nodes) :=
    takeReady_perm (by simp [proper]) (g.nodes_proper ▸ distinct) []
  rwa [nodes_proper] at order

theorem proper_edge_iff (g : Graph) :
    g.proper.Edge node next ↔ g.Edge node next ∧ next ∈ g.nodes ∧ next ≠ node := by
  have found : g.proper.lookup node = (g.lookup node).map
      fun targets => targets.filter fun next => g.nodes.contains next && next != node :=
    Keyed.lookup_map g (fun name targets =>
      targets.filter fun next => g.nodes.contains next && next != name) node
  unfold Edge targets
  rw [found]
  cases g.lookup node <;> simp [List.mem_filter]

/-! ### Targets come first -/

/-- A state in which the taken nodes are settled and all others are pending. -/
structure Taking (g pending : Graph) (taken : List String) : Prop where
  settled : g.proper.Settled taken.reverse
  entries : ∀ entry ∈ pending, entry ∈ g.proper
  covers : ∀ node ∈ g.nodes, node ∈ taken ∨ node ∈ pending.nodes
  distinct : pending.nodes.Nodup
  apart : ∀ node ∈ pending.nodes, node ∉ taken

private theorem Taking.edge_iff {g pending : Graph} (taking : g.Taking pending taken)
    (distinct : g.nodes.Nodup) {entry : String × List String} (member : entry ∈ pending) :
    g.proper.Edge entry.1 next ↔ next ∈ entry.2 :=
  edge_iff_of_entry (g.nodes_proper ▸ distinct) (taking.entries entry member)

private theorem Taking.next {g pending : Graph} (taking : g.Taking pending taken)
    (distinct : g.nodes.Nodup) {entry : String × List String} (member : entry ∈ pending)
    (ready : ∀ next ∈ entry.2, next ∈ taken) :
    g.Taking (pending.without entry.1) (taken ++ [entry.1]) := by
  have listed : entry.1 ∈ pending.nodes := List.mem_map_of_mem member
  have rest := nodes_without taking.distinct entry.1
  refine ⟨?_, ?_, ?_, rest ▸ taking.distinct.erase entry.1, ?_⟩
  · rw [List.reverse_append, List.reverse_singleton, List.singleton_append]
    refine .cons (by simpa using taking.apart entry.1 listed) ?_ taking.settled
    intro next edge
    exact List.mem_reverse.mpr (ready next ((taking.edge_iff distinct member).mp edge))
  · intro other kept
    exact taking.entries other (List.mem_filter.mp kept).1
  · intro node inside
    rw [rest, List.mem_append, List.mem_singleton, taking.distinct.mem_erase_iff]
    rcases taking.covers node inside with earlier | waiting
    · exact .inl (.inl earlier)
    · by_cases same : node = entry.1
      · exact .inl (.inr same)
      · exact .inr ⟨same, waiting⟩
  · intro node waiting inside
    rw [rest, taking.distinct.mem_erase_iff] at waiting
    rcases List.mem_append.mp inside with earlier | last
    · exact taking.apart node waiting.2 earlier
    · exact waiting.1 (List.mem_singleton.mp last)

/-- Where no pending node is ready, walks through pending nodes never have to end. -/
private theorem Taking.blocked_walk {g pending : Graph} (taking : g.Taking pending taken)
    (distinct : g.nodes.Nodup) (blocked : ∀ entry ∈ pending, ∃ next ∈ entry.2, next ∉ taken)
    (steps : Nat) (waiting : node ∈ pending.nodes) :
    ∃ goal, Walk g.proper.Edge steps node goal := by
  induction steps generalizing node with
  | zero => exact ⟨node, .here⟩
  | succ steps ih =>
    obtain ⟨entry, member, rfl⟩ := List.mem_map.mp waiting
    obtain ⟨next, target, untaken⟩ := blocked entry member
    have edge := (taking.edge_iff distinct member).mpr target
    have inside := ((proper_edge_iff g).mp edge).2.1
    obtain ⟨goal, walk⟩ := ih ((taking.covers next inside).resolve_left untaken)
    exact ⟨goal, .step edge walk⟩

/-- The nodes whose names differ first stand in the order of the graph. -/
def Precedes (g : Graph) (first second : List String) : Prop :=
  List.Lex (fun a b => g.nodes.idxOf a < g.nodes.idxOf b) first second

/-- How far taking nodes gets: `more` were taken and none of those that are left is ready. Of all
ways to go on with the same nodes this one comes first. -/
structure Exhausted (g pending : Graph) (taken more : List String) (left : Graph) : Prop where
  taking : g.Taking left (taken ++ more)
  blocked : ∀ entry ∈ left, ∃ next ∈ entry.2, next ∉ taken ++ more
  kept : left.Sublist pending
  chosen : ∀ node ∈ more, node ∈ pending.nodes
  least : ∀ other, other.Perm more → Ranked g.proper.Edge (taken ++ other) →
    other = more ∨ g.Precedes more other

theorem pairwise_idxOf (g : Graph) (distinct : g.nodes.Nodup) :
    g.nodes.Pairwise fun a b => g.nodes.idxOf a < g.nodes.idxOf b := by
  refine List.pairwise_iff_getElem.mpr fun i j first second before => ?_
  rwa [distinct.idxOf_getElem, distinct.idxOf_getElem]

/-- The first entry that is ready stands before all others that are. -/
private theorem idxOf_lt_of_find? {g pending : Graph} {ready : String × List String → Bool}
    {entry other : String × List String} (distinct : g.nodes.Nodup)
    (kept : pending.Sublist g.proper) (found : pending.find? ready = some entry)
    (member : other ∈ pending) (also : ready other = true) (differs : other ≠ entry) :
    g.nodes.idxOf entry.1 < g.nodes.idxOf other.1 := by
  have positions : g.proper.nodes.Pairwise fun a b => g.nodes.idxOf a < g.nodes.idxOf b := by
    rw [nodes_proper]
    exact g.pairwise_idxOf distinct
  obtain ⟨-, before, after, split, unready⟩ := List.find?_eq_some_iff_append.mp found
  have sorted := (List.pairwise_map.mp positions).sublist kept
  rw [split] at sorted member
  rcases List.mem_append.mp member with earlier | later
  · have missed := unready other earlier
    simp [also] at missed
  · rcases List.mem_cons.mp later with same | later
    · exact absurd same differs
    · exact (List.pairwise_cons.mp (List.pairwise_append.mp sorted).2.1).1 other later

private theorem Exhausted.next {g pending left : Graph} {more : List String}
    {entry : String × List String} (exhausted : g.Exhausted (pending.without entry.1)
      (taken ++ [entry.1]) more left)
    (taking : g.Taking pending taken) (distinct : g.nodes.Nodup) (kept : pending.Sublist g.proper)
    (found : pending.find? (fun entry => entry.2.all taken.contains) = some entry) :
    g.Exhausted pending taken (entry.1 :: more) left := by
  have shift : taken ++ [entry.1] ++ more = taken ++ entry.1 :: more := by simp
  have member := List.mem_of_find?_eq_some found
  have chosen : ∀ node ∈ entry.1 :: more, node ∈ pending.nodes := by
    intro node inside
    rcases List.mem_cons.mp inside with rfl | later
    · exact List.mem_map_of_mem member
    · exact (List.filter_sublist.map _).subset (exhausted.chosen node later)
  refine ⟨shift ▸ exhausted.taking, shift ▸ exhausted.blocked,
    exhausted.kept.trans List.filter_sublist, chosen, fun other perm ranked => ?_⟩
  cases other with
  | nil => simp at perm
  | cons head tail =>
    by_cases same : head = entry.1
    · subst same
      rcases exhausted.least tail perm.cons_inv (by simpa using ranked) with rfl | earlier
      · exact .inl rfl
      · exact .inr (.cons earlier)
    · -- Another head is ready as well, so it stands behind the first one that is.
      obtain ⟨rival, inside, rfl⟩ :=
        List.mem_map.mp (chosen head (perm.subset (List.mem_cons_self ..)))
      have ready : rival.2.all taken.contains = true := by
        refine List.all_eq_true.mpr fun next target => List.contains_iff_mem.mpr ?_
        exact ranked taken rival.1 tail rfl next ((taking.edge_iff distinct inside).mpr target)
      have differs : rival ≠ entry := fun alike => same (congrArg Prod.fst alike)
      exact .inr (.rel (idxOf_lt_of_find? distinct kept found inside ready differs))

private theorem Taking.exhausted {g left : Graph} (taking : g.Taking left taken)
    (blocked : ∀ entry ∈ left, ∃ next ∈ entry.2, next ∉ taken) :
    g.Exhausted left taken [] left where
  taking := by simpa using taking
  blocked := by simpa using blocked
  kept := List.Sublist.refl left
  chosen := by simp
  least _ perm _ := .inl perm.eq_nil

/-- Taking nodes goes on until none is ready. -/
theorem takeReady_exhausted {g pending : Graph} (taking : g.Taking pending taken)
    (distinct : g.nodes.Nodup) (kept : pending.Sublist g.proper) (enough : pending.length ≤ fuel) :
    ∃ more left, takeReady fuel pending taken = taken ++ more ++ left.nodes ∧
      g.Exhausted pending taken more left := by
  induction fuel generalizing pending taken with
  | zero =>
    have empty : pending = [] := List.length_eq_zero_iff.mp (Nat.le_zero.mp enough)
    subst empty
    exact ⟨[], [], by simp [takeReady, nodes], taking.exhausted (by simp)⟩
  | succ fuel ih =>
    rw [takeReady]
    split
    · rename_i entry found
      have member := List.mem_of_find?_eq_some found
      have ready : ∀ next ∈ entry.2, next ∈ taken := by
        simpa using List.find?_some found
      have shorter := length_without_lt member
      obtain ⟨more, left, result, exhausted⟩ := ih (taking.next distinct member ready)
        (List.filter_sublist.trans kept) (by omega)
      exact ⟨entry.1 :: more, left, by simp [result], exhausted.next taking distinct kept found⟩
    · rename_i none
      refine ⟨[], pending, by simp, taking.exhausted fun entry member => ?_⟩
      simpa using List.find?_eq_none.mp none entry member

theorem dependencyOrder_exhausted {g : Graph} (distinct : g.nodes.Nodup) :
    ∃ first left, g.dependencyOrder = first ++ left.nodes ∧ g.Exhausted g.proper [] first left := by
  have start : g.Taking g.proper [] := by
    refine ⟨.nil, fun _ member => member, fun node inside => ?_, g.nodes_proper ▸ distinct, by simp⟩
    exact .inr (g.nodes_proper ▸ inside)
  exact takeReady_exhausted start distinct (List.Sublist.refl _) (by simp [proper])

/-- From every node that is left a cycle can be reached. -/
theorem Exhausted.reachesCycle {g pending left : Graph}
    (exhausted : g.Exhausted pending taken more left) (distinct : g.nodes.Nodup)
    (waiting : node ∈ left.nodes) : ReachesCycle g.proper.Edge node := by
  obtain ⟨goal, walk⟩ :=
    exhausted.taking.blocked_walk distinct exhausted.blocked (g.proper.length + 1) waiting
  exact reachesCycle_of_walk walk (Nat.lt_succ_self _)

theorem dependencyOrder_of_acyclic {g : Graph} (distinct : g.nodes.Nodup)
    (acyclic : Acyclic g.proper.Edge) : ∃ left, g.Exhausted g.proper [] g.dependencyOrder left := by
  obtain ⟨first, left, order, exhausted⟩ := dependencyOrder_exhausted distinct
  have none : left.nodes = [] := List.eq_nil_iff_forall_not_mem.mpr fun node waiting =>
    acyclic.not_reachesCycle (exhausted.reachesCycle distinct waiting)
  rw [order, none, List.append_nil]
  exact ⟨left, exhausted⟩

private theorem Settled.earlier {g : Graph} (settled : g.Settled (later ++ node :: done))
    (edge : g.Edge node next) : next ∈ done := by
  induction later with
  | nil =>
    cases settled with
    | cons _ below _ => exact below next edge
  | cons _ _ ih =>
    cases settled with
    | cons _ _ rest => exact ih rest

theorem Settled.ranked {g : Graph} {order : List String} (settled : g.Settled order.reverse) :
    Ranked g.Edge order := by
  rintro before node after rfl next edge
  rw [List.reverse_append, List.reverse_cons, List.append_assoc, List.singleton_append] at settled
  exact List.mem_reverse.mp (settled.earlier edge)

private theorem settled_of_ranked {g : Graph} {order : List String} (distinct : order.Nodup)
    (ranked : Ranked g.Edge order) : g.Settled order.reverse := by
  induction order using List.reverseRecOn with
  | nil => exact .nil
  | append_singleton before node ih =>
    rw [List.nodup_append] at distinct
    rw [List.reverse_append, List.reverse_singleton, List.singleton_append]
    refine .cons (fun member => ?_) (fun next edge => ?_) (ih distinct.1 ?_)
    · exact distinct.2.2 node (List.mem_reverse.mp member) node (List.mem_singleton_self _) rfl
    · exact List.mem_reverse.mpr (ranked before node [] rfl next edge)
    · rintro earlier inner after rfl
      exact ranked earlier inner (after ++ [node]) (by simp)

private theorem not_lex_of_pairwise {before : α → α → Prop} [Std.Asymm before]
    {sorted other : List α} (pairwise : sorted.Pairwise before) (perm : other.Perm sorted) :
    ¬ List.Lex before other sorted := by
  induction sorted generalizing other with
  | nil =>
    intro earlier
    cases earlier
  | cons head tail ih =>
    intro earlier
    obtain ⟨first, rest⟩ := List.pairwise_cons.mp pairwise
    cases earlier with
    | nil => simp at perm
    | cons later => exact ih rest perm.cons_inv later
    | @rel front _ _ _ ahead =>
      rcases List.mem_cons.mp (perm.subset (List.mem_cons_self ..)) with rfl | behind
      · exact Std.Asymm.asymm _ _ ahead ahead
      · exact Std.Asymm.asymm _ _ ahead (first front behind)

theorem dependencyOrder_of_ranked {g : Graph} (distinct : g.nodes.Nodup)
    (ranked : Ranked g.proper.Edge g.nodes) : g.dependencyOrder = g.nodes := by
  have acyclic : Acyclic g.proper.Edge := (settled_of_ranked distinct ranked).acyclic
    fun node inside => List.mem_reverse.mpr (g.nodes_proper ▸ inside)
  obtain ⟨left, exhausted⟩ := dependencyOrder_of_acyclic distinct acyclic
  rcases exhausted.least g.nodes (dependencyOrder_perm distinct).symm (by simpa using ranked) with
    same | earlier
  · exact same.symm
  · have : Std.Asymm fun a b => g.nodes.idxOf a < g.nodes.idxOf b := ⟨fun _ _ => Nat.lt_asymm⟩
    exact absurd earlier (not_lex_of_pairwise (g.pairwise_idxOf distinct)
      (dependencyOrder_perm distinct))

end Graph

end Schemata
