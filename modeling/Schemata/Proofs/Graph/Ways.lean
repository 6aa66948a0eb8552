import Schemata.Proofs.Graph.Cycles

/-! Which cycles the search for cycles reports. It comes to every node on one way only, the first
one in the order of the targets, and reports the cycles that an edge closes with the way to its
start. Every cycle of the graph has such an edge, so it is reported itself unless another cycle runs
along that edge. -/

namespace Schemata.Graph

/-- The edges that do not lead back to a path. -/
def Past (g : Graph) (path : List String) (node next : String) : Prop :=
  g.Edge node next ∧ next ∉ path

/-- A walk that stays off a path leads from one node to another. -/
def Reaches (g : Graph) (path : List String) (node goal : String) : Prop :=
  node ∉ path ∧ ∃ steps, Walk (g.Past path) steps node goal

/-- The way to a node from the end of a path: at each turn it takes the first name from which the
node can still be reached without a step back to what lies behind. -/
inductive Leads (g : Graph) (goal : String) : List String → List String → List String → Prop where
  | arrives (free : goal ∉ path) : Leads g goal path (goal :: names) [goal]
  | turns (other : next ≠ goal) (free : next ∉ path)
      (rest : Leads g goal (path ++ [next]) (g.targets next) way) :
      Leads g goal path (next :: names) (next :: way)
  | passes (blocked : ¬ g.Reaches path next goal) (rest : Leads g goal path names way) :
      Leads g goal path (next :: names) way

/-- The cycle that a step back to a node of a path closes. -/
def loopAt (path : List String) (next : String) : List String :=
  path.dropWhile (· != next) ++ [next]

/-- A cycle that a search closes from the end of a path: with one of the names that it goes through,
or with an edge of a node that it has not seen and comes to. -/
inductive Closes (g : Graph) (path names seen : List String) : List String → Prop where
  | here (listed : next ∈ names) (back : next ∈ path) : Closes g path names seen (loopAt path next)
  | below (fresh : node ∉ seen) (leads : g.Leads node path names way) (edge : g.Edge node next)
      (back : next ∈ path ++ way) : Closes g path names seen (loopAt (path ++ way) next)

variable {g : Graph} {path names way : List String} {s final : Search}

/-! ### Ways -/

theorem Reaches.enter (free : next ∉ path) (edge : g.Edge next target)
    (reaches : g.Reaches (path ++ [next]) target goal) : g.Reaches path next goal := by
  obtain ⟨off, steps, walk⟩ := reaches
  have away : target ∉ path := fun inside => off (List.mem_append_left _ inside)
  refine ⟨free, steps + 1, .step ⟨edge, away⟩ (walk.mono ?_)⟩
  intro node next past
  exact ⟨past.1, fun inside => past.2 (List.mem_append_left _ inside)⟩

theorem Leads.reaches (leads : g.Leads goal path names way) :
    ∃ next ∈ names, g.Reaches path next goal := by
  induction leads with
  | arrives free => exact ⟨goal, List.mem_cons_self .., free, 0, .here⟩
  | turns other free rest ih =>
    obtain ⟨target, edge, reaches⟩ := ih
    exact ⟨_, List.mem_cons_self .., reaches.enter free edge⟩
  | passes blocked rest ih =>
    obtain ⟨next, listed, reaches⟩ := ih
    exact ⟨next, List.mem_cons_of_mem _ listed, reaches⟩

theorem Leads.reaches_from (leads : g.Leads goal (path ++ [next]) (g.targets next) way)
    (free : next ∉ path) :
    g.Reaches path next goal := by
  obtain ⟨target, edge, reaches⟩ := leads.reaches
  exact reaches.enter free edge

theorem Leads.unique (one : g.Leads goal path names way) (other : g.Leads goal path names way') :
    way = way' := by
  induction one generalizing way' with
  | arrives free =>
    cases other with
    | arrives _ => rfl
    | turns other _ _ => exact absurd rfl other
    | passes blocked _ => exact absurd ⟨free, 0, .here⟩ blocked
  | turns differs free below ih =>
    cases other with
    | arrives _ => exact absurd rfl differs
    | turns _ _ rest => rw [ih rest]
    | passes blocked _ => exact absurd (below.reaches_from free) blocked
  | passes blocked _ ih =>
    cases other with
    | arrives free => exact absurd ⟨free, 0, .here⟩ blocked
    | turns _ free below => exact absurd (below.reaches_from free) blocked
    | passes _ rest => exact ih rest

theorem Leads.getLast?_eq (leads : g.Leads goal path names way) : way.getLast? = some goal := by
  induction leads with
  | arrives => rfl
  | turns other free rest ih => rw [List.getLast?_cons, ih, Option.getD_some]
  | passes blocked rest ih => exact ih

/-- A way goes on from its path along edges and meets no node twice. -/
theorem Leads.simple (leads : g.Leads goal path names way)
    (edges : ∀ next ∈ names, (path ++ [next]).IsChain g.Edge) (simple : path.Nodup) :
    (path ++ way).IsChain g.Edge ∧ (path ++ way).Nodup := by
  induction leads with
  | arrives free =>
    exact ⟨edges goal (List.mem_cons_self ..),
      simple.append (List.nodup_singleton goal) (by simpa using free)⟩
  | @turns next path way names other free rest ih =>
    have here := edges next (List.mem_cons_self ..)
    have below : ∀ target ∈ g.targets next, (path ++ [next] ++ [target]).IsChain g.Edge := by
      intro target points
      exact here.append (.singleton target) (by simpa [Edge] using points)
    have longer := simple.append (List.nodup_singleton next) (by simpa using free)
    simpa using ih below longer
  | passes blocked rest ih =>
    exact ih (fun next listed => edges next (List.mem_cons_of_mem _ listed)) simple

/-! ### What has been seen -/

@[simp]
theorem visited_record (s : Search) (cycle : List String) :
    (s.record cycle).visited = s.visited := by
  unfold Search.record
  split <;> rfl

private theorem cycles_subset_record (s : Search) (cycle : List String) :
    s.cycles ⊆ (s.record cycle).cycles := by
  unfold Search.record
  split
  · exact List.Subset.refl _
  · exact List.subset_append_left ..

/-- A search that stands at the end of a path: from what it has seen off the path, edges lead to
what it has seen. -/
structure Sealed (g : Graph) (path : List String) (s : Search) : Prop where
  onPath : path ⊆ s.visited
  closed : ∀ node ∈ s.visited, node ∉ path → ∀ next, g.Edge node next → next ∈ s.visited

/-- A walk that stays off the path does not leave what has been seen. -/
theorem Sealed.seen (sealed : g.Sealed path s) (seen : node ∈ s.visited)
    (reaches : g.Reaches path node goal) :
    goal ∈ s.visited := by
  obtain ⟨off, steps, walk⟩ := reaches
  have kept : ∀ node next, (node ∈ s.visited ∧ node ∉ path) → g.Past path node next →
      next ∈ s.visited ∧ next ∉ path := by
    rintro node next ⟨seen, off⟩ ⟨edge, away⟩
    exact ⟨sealed.closed node seen off next edge, away⟩
  exact (walk.stays kept ⟨seen, off⟩).1

theorem Sealed.blocked (sealed : g.Sealed path s) (seen : node ∈ s.visited)
    (fresh : goal ∉ s.visited) :
    ¬ g.Reaches path node goal :=
  fun reaches => fresh (sealed.seen seen reaches)

theorem blocked_of_mem (onPath : node ∈ path) : ¬ g.Reaches path node goal :=
  fun reaches => reaches.1 onPath

theorem Sealed.record (sealed : g.Sealed path s) (cycle : List String) :
    g.Sealed path (s.record cycle) := by
  constructor
  · rw [visited_record]
    exact sealed.onPath
  · rw [visited_record]
    exact sealed.closed

theorem Sealed.enter (sealed : g.Sealed path s) (next : String) :
    g.Sealed (path ++ [next]) { s with visited := next :: s.visited } := by
  constructor
  · intro node member
    rcases List.mem_append.mp member with earlier | last
    · exact List.mem_cons_of_mem _ (sealed.onPath earlier)
    · exact List.mem_singleton.mp last ▸ List.mem_cons_self ..
  · intro node seen off target edge
    obtain ⟨offPath, other⟩ := not_or.mp (mt List.mem_append.mpr off)
    rcases List.mem_cons.mp seen with same | earlier
    · exact absurd (List.mem_singleton.mpr same) other
    · exact List.mem_cons_of_mem _ (sealed.closed node earlier offPath target edge)

theorem Sealed.leave (sealed : g.Sealed (path ++ [next]) s) (below : g.targets next ⊆ s.visited) :
    g.Sealed path s := by
  constructor
  · exact fun node member => sealed.onPath (List.mem_append_left _ member)
  · intro node seen off target edge
    by_cases same : node = next
    · subst same
      exact below edge
    · refine sealed.closed node seen (fun member => ?_) target edge
      rcases List.mem_append.mp member with earlier | last
      · exact off earlier
      · exact same (List.mem_singleton.mp last)

theorem Explores.seals (explores : g.Explores path s names final) (sealed : g.Sealed path s) :
    g.Sealed path final ∧ s.visited ⊆ final.visited ∧ names ⊆ final.visited := by
  induction explores with
  | finished => exact ⟨sealed, List.Subset.refl _, List.nil_subset _⟩
  | closes onPath _ ih =>
    obtain ⟨after, kept, seen⟩ := ih (sealed.record _)
    rw [visited_record] at kept
    exact ⟨after, kept, List.cons_subset.mpr ⟨kept (sealed.onPath onPath), seen⟩⟩
  | known _ known _ ih =>
    obtain ⟨after, kept, seen⟩ := ih sealed
    exact ⟨after, kept, List.cons_subset.mpr ⟨kept known, seen⟩⟩
  | @enters path next s middle names final _ _ _ _ ihInside ih =>
    obtain ⟨inside, entered, below⟩ := ihInside (sealed.enter next)
    obtain ⟨after, kept, seen⟩ := ih (inside.leave below)
    obtain ⟨first, earlier⟩ := List.cons_subset.mp entered
    exact ⟨after, List.Subset.trans earlier kept, List.cons_subset.mpr ⟨kept first, seen⟩⟩

/-- After a visit everything that can be reached from its node off the path has been seen. -/
private theorem Explores.left
    (inside : g.Explores (path ++ [next]) { s with visited := next :: s.visited }
      (g.targets next) final)
    (sealed : g.Sealed path s) :
    g.Sealed path final ∧ next ∈ final.visited ∧ s.visited ⊆ final.visited := by
  obtain ⟨after, entered, below⟩ := inside.seals (sealed.enter next)
  obtain ⟨first, earlier⟩ := List.cons_subset.mp entered
  exact ⟨after.leave below, first, earlier⟩

/-- Every node that a search comes to has a way. -/
theorem Explores.leads (explores : g.Explores path s names final) (sealed : g.Sealed path s)
    (seen : goal ∈ final.visited) (fresh : goal ∉ s.visited) :
    ∃ way, g.Leads goal path names way := by
  induction explores with
  | finished => exact absurd seen fresh
  | closes onPath _ ih =>
    obtain ⟨way, leads⟩ := ih (sealed.record _) seen (by simpa using fresh)
    exact ⟨way, .passes (blocked_of_mem onPath) leads⟩
  | known offPath known _ ih =>
    obtain ⟨way, leads⟩ := ih sealed seen fresh
    exact ⟨way, .passes (sealed.blocked known fresh) leads⟩
  | @enters path next s middle names final offPath _ inside _ ihInside ih =>
    obtain ⟨left, entered, _⟩ := inside.left sealed
    by_cases met : goal ∈ middle.visited
    · by_cases same : next = goal
      · subst same
        exact ⟨[next], .arrives offPath⟩
      · have later : goal ∉ next :: s.visited := by
          simpa [fresh] using fun equal : goal = next => same equal.symm
        obtain ⟨way, leads⟩ := ihInside (sealed.enter next) met later
        exact ⟨next :: way, .turns same offPath leads⟩
    · obtain ⟨way, leads⟩ := ih left seen met
      exact ⟨way, .passes (left.blocked entered met) leads⟩

/-! ### What is reported -/

theorem Explores.keeps (explores : g.Explores path s names final) : s.cycles ⊆ final.cycles := by
  induction explores with
  | finished => exact List.Subset.refl _
  | closes _ _ ih => exact List.Subset.trans (cycles_subset_record _ _) ih
  | known _ _ _ ih => exact ih
  | enters _ _ _ _ ihInside ih => exact List.Subset.trans ihInside ih

private theorem Closes.pass (closes : g.Closes path names seen cycle) (earlier : shown ⊆ seen)
    (blocked : ∀ node ∉ seen, ¬ g.Reaches path next node) :
    g.Closes path (next :: names) shown cycle := by
  cases closes with
  | here listed back => exact .here (List.mem_cons_of_mem _ listed) back
  | below fresh leads edge back =>
    exact .below (fun inside => fresh (earlier inside)) (.passes (blocked _ fresh) leads) edge back

private theorem Closes.enter (closes : g.Closes (path ++ [next]) (g.targets next)
    (next :: seen) cycle) (free : next ∉ path) (fresh :
      next ∉ seen) : g.Closes path (next :: names) seen cycle := by
  cases closes with
  | here listed back => exact .below fresh (.arrives free) listed back
  | @below node way target later leads edge back =>
    obtain ⟨other, unseen⟩ := not_or.mp (mt List.mem_cons.mpr later)
    have onward : g.Leads node path (next :: names) (next :: way) :=
      .turns (fun same => other same.symm) free leads
    have split : path ++ [next] ++ way = path ++ next :: way := by simp
    rw [split] at back ⊢
    exact .below unseen onward edge back

theorem Explores.reported_closes (explores : g.Explores path s names final)
    (sealed : g.Sealed path s) (reported : cycle ∈ final.cycles) :
    cycle ∈ s.cycles ∨ g.Closes path names s.visited cycle := by
  induction explores with
  | finished => exact .inl reported
  | @closes path next names final s onPath _ ih =>
    rcases ih (sealed.record _) reported with old | later
    · unfold Search.record at old
      split at old
      · exact .inl old
      · rcases List.mem_append.mp old with earlier | new
        · exact .inl earlier
        · obtain rfl := List.mem_singleton.mp new
          exact .inr (.here (List.mem_cons_self ..) onPath)
    · rw [visited_record] at later
      exact .inr (later.pass (List.Subset.refl _) fun _ _ => blocked_of_mem onPath)
  | known offPath known _ ih =>
    exact (ih sealed reported).imp_right fun later =>
      later.pass (List.Subset.refl _) fun _ fresh => sealed.blocked known fresh
  | @enters path next s middle names final offPath fresh inside _ ihInside ih =>
    obtain ⟨left, entered, kept⟩ := inside.left sealed
    rcases ih left reported with earlier | later
    · exact (ihInside (sealed.enter next) earlier).imp_right fun below => below.enter offPath fresh
    · exact .inr (later.pass kept fun _ unmet => left.blocked entered unmet)

/-- A report over the same nodes. -/
def Search.Reports (s : Search) (cycle : List String) : Prop :=
  ∃ reported ∈ s.cycles, ∀ node, node ∈ reported ↔ node ∈ cycle

theorem Search.Reports.mono (reports : s.Reports cycle) (kept : s.cycles ⊆ final.cycles) :
    final.Reports cycle := by
  obtain ⟨reported, member, same⟩ := reports
  exact ⟨reported, kept member, same⟩

theorem reports_record (s : Search) (cycle : List String) : (s.record cycle).Reports cycle := by
  unfold Search.record
  split
  · rename_i known
    obtain ⟨reported, member, same⟩ := List.any_eq_true.mp known
    exact ⟨reported, member, fun node => ((sameNodes_iff _ _).mp same node).symm⟩
  · exact ⟨cycle, List.mem_append_right _ (List.mem_singleton_self _), fun _ => Iff.rfl⟩

theorem Explores.reports (explores : g.Explores path s names final) (sealed : g.Sealed path s)
    (closes : g.Closes path names s.visited cycle) : final.Reports cycle := by
  induction explores with
  | finished =>
    cases closes with
    | here listed _ => cases listed
    | below _ leads _ _ => cases leads
  | @closes path next names final s onPath rest ih =>
    have later := ih (sealed.record _)
    rw [visited_record] at later
    cases closes with
    | here listed back =>
      rcases List.mem_cons.mp listed with same | member
      · subst same
        exact (reports_record s (loopAt path _)).mono rest.keeps
      · exact later (.here member back)
    | below fresh leads edge back =>
      cases leads with
      | arrives free => exact absurd onPath free
      | turns _ free _ => exact absurd onPath free
      | passes _ leads => exact later (.below fresh leads edge back)
  | @known next path s names final offPath known _ ih =>
    cases closes with
    | here listed back =>
      rcases List.mem_cons.mp listed with same | member
      · exact absurd (same ▸ back) offPath
      · exact ih sealed (.here member back)
    | below fresh leads edge back =>
      cases leads with
      | arrives _ => exact absurd known fresh
      | turns _ free below => exact absurd (below.reaches_from free) (sealed.blocked known fresh)
      | passes _ leads => exact ih sealed (.below fresh leads edge back)
  | @enters path next s middle names final offPath fresh inside rest ihInside ih =>
    obtain ⟨left, entered, kept⟩ := inside.left sealed
    have within := fun closes => (ihInside (sealed.enter next) closes).mono rest.keeps
    cases closes with
    | here listed back =>
      rcases List.mem_cons.mp listed with same | member
      · exact absurd (same ▸ back) offPath
      · exact ih left (.here member back)
    | @below node way target unseen leads edge back =>
      cases leads with
      | arrives free => exact within (.here edge back)
      | @turns _ _ way _ other free below =>
        have split : path ++ next :: way = path ++ [next] ++ way := by simp
        rw [split] at back within ⊢
        have later : node ∉ next :: s.visited := by
          simpa [unseen] using fun equal : node = next => other equal.symm
        exact within (.below later below edge back)
      | passes blocked leads =>
        -- A node that was met inside can be reached from the name entered, but the way passes that
        -- name.
        refine ih left (.below (fun met => blocked ?_) leads edge back)
        by_cases same : node = next
        · subst same
          exact ⟨offPath, 0, .here⟩
        · have later : node ∉ next :: s.visited := by simp [unseen, same]
          obtain ⟨way, below⟩ := inside.leads (sealed.enter next) met later
          exact below.reaches_from offPath

/-! ### Every cycle has an edge that the search closes -/

section Ring

variable {ring : List String}

theorem IsCycle.exists_edge_to (cycle : g.IsCycle ring) (member : next ∈ ring) :
    ∃ node ∈ ring, [node, next] <:+: ring := by
  obtain ⟨start, between, rfl⟩ := cycle.turns
  have later : next ∈ between ++ [start] := by simpa [or_comm] using member
  obtain ⟨before, after, split⟩ := List.append_of_mem later
  obtain ⟨front, node, ends⟩ := List.eq_nil_or_concat (start :: before) |>.resolve_left (by simp)
  have whole : start :: (between ++ [start]) = front ++ [node, next] ++ after := by
    rw [split, ← List.cons_append, ends]
    simp
  refine ⟨node, ?_, front, after, whole.symm⟩
  rw [whole]
  simp

private theorem edge_of_adjacent (edges : ring.IsChain g.Edge) (step : [node, next] <:+: ring) :
    g.Edge node next := by
  simpa using edges.infix step

/-- A list that runs along edges and stays off a path is a walk from its first node to each of its
nodes. -/
private theorem walk_to {first : String} (edges : (first :: ring).IsChain g.Edge)
    (off : ∀ node ∈ ring, node ∉ path) (member : goal ∈ first :: ring) :
    ∃ steps, Walk (g.Past path) steps first goal := by
  induction ring generalizing first with
  | nil => exact ⟨0, List.mem_singleton.mp member ▸ .here⟩
  | cons second rest ih =>
    obtain ⟨edge, later⟩ := List.isChain_cons_cons.mp edges
    rcases List.mem_cons.mp member with same | inside
    · exact ⟨0, same ▸ .here⟩
    · obtain ⟨steps, walk⟩ :=
        ih later (fun node listed => off node (List.mem_cons_of_mem _ listed)) inside
      exact ⟨steps + 1, .step ⟨edge, off second (List.mem_cons_self ..)⟩ walk⟩

theorem IsCycle.reaches (cycle : g.IsCycle ring) (off : ∀ node ∈ ring, node ∉ path)
    (member : node ∈ ring) (inside : goal ∈ ring) : g.Reaches path node goal := by
  obtain ⟨start, between, rfl⟩ := cycle.turns
  have later : node ∈ between ++ [start] := by simpa [or_comm] using member
  obtain ⟨before, after, split⟩ := List.append_of_mem later
  have edges := cycle.edges
  rw [split] at edges off inside
  -- From the node the cycle goes on to its start, and from there to every other node.
  have onward : (node :: after).IsChain g.Edge := edges.suffix ⟨start :: before, rfl⟩
  have home : start ∈ node :: after := by
    have last := congrArg List.getLast? split
    rw [List.getLast?_concat, List.getLast?_append_cons] at last
    exact List.mem_of_getLast? last.symm
  have offLater : ∀ other ∈ after, other ∉ path := fun other listed =>
    off other (by simp [listed])
  obtain ⟨some, there⟩ := walk_to onward offLater home
  obtain ⟨more, round⟩ :=
    walk_to edges (fun other listed => off other (List.mem_cons_of_mem _ listed)) inside
  exact ⟨off node (by simp), _, there.trans round⟩

/-- Of a cycle that a search has not met and comes to, it enters some node first; the edge of the
cycle to that node starts at one to which the way passes it. -/
theorem Explores.closes_ring (explores : g.Explores path s names final) (sealed : g.Sealed path s)
    (cycle : g.IsCycle ring) (fresh : ∀ node ∈ ring, node ∉ s.visited)
    (met : ∃ node ∈ ring, node ∈ final.visited) :
    ∃ node ∈ ring, ∃ next way, [node, next] <:+: ring ∧ g.Leads node path names way ∧
      next ∈ way := by
  induction explores with
  | finished =>
    obtain ⟨node, member, seen⟩ := met
    exact absurd seen (fresh node member)
  | closes onPath _ ih =>
    obtain ⟨node, member, next, way, step, leads, back⟩ :=
      ih (sealed.record _) (by simpa using fresh) met
    exact ⟨node, member, next, way, step, .passes (blocked_of_mem onPath) leads, back⟩
  | known offPath known _ ih =>
    obtain ⟨node, member, next, way, step, leads, back⟩ := ih sealed fresh met
    exact ⟨node, member, next, way, step, .passes (sealed.blocked known (fresh node member)) leads,
      back⟩
  | @enters path first s middle names final offPath unseen inside _ ihInside ih =>
    obtain ⟨left, entered, _⟩ := inside.left sealed
    by_cases onRing : first ∈ ring
    · obtain ⟨node, member, step⟩ := cycle.exists_edge_to onRing
      by_cases same : first = node
      · subst same
        exact ⟨first, member, first, [first], step, .arrives offPath, List.mem_cons_self ..⟩
      · have off : ∀ other ∈ ring, other ∉ path := fun other listed onPath =>
          fresh other listed (sealed.onPath onPath)
        have seen := left.seen entered (cycle.reaches off onRing member)
        have later : node ∉ first :: s.visited := by
          simpa [fresh node member] using fun equal : node = first => same equal.symm
        obtain ⟨way, leads⟩ := inside.leads (sealed.enter first) seen later
        exact ⟨node, member, first, first :: way, step, .turns same offPath leads,
          List.mem_cons_self ..⟩
    · have apart : ∀ node ∈ ring, node ≠ first := fun node member same => onRing (same ▸ member)
      by_cases metInside : ∃ node ∈ ring, node ∈ middle.visited
      · have later : ∀ node ∈ ring, node ∉ first :: s.visited := by
          intro node member
          simp [apart node member, fresh node member]
        obtain ⟨node, member, next, way, step, leads, back⟩ :=
          ihInside (sealed.enter first) later metInside
        have turned : first ≠ node := fun same => apart node member same.symm
        exact ⟨node, member, next, first :: way, step, .turns turned offPath leads,
          List.mem_cons_of_mem _ back⟩
      · have unmet : ∀ node ∈ ring, node ∉ middle.visited := fun node member seen =>
          metInside ⟨node, member, seen⟩
        obtain ⟨node, member, next, way, step, leads, back⟩ := ih left unmet met
        exact ⟨node, member, next, way, step,
          .passes (left.blocked entered (unmet node member)) leads, back⟩

end Ring

/-! ### The search of a whole graph -/

/-- An edge of a node that leads back to the way to the node. -/
structure Closing (g : Graph) (node next : String) (way : List String) : Prop where
  leads : g.Leads node [] g.nodes way
  edge : g.Edge node next
  back : next ∈ way

theorem sealed_start (g : Graph) : g.Sealed [] ⟨[], []⟩ := ⟨List.nil_subset _, by simp⟩

theorem existsUnique_way (g : Graph) (listed : node ∈ g.nodes) :
    ∃! way, g.Leads node [] g.nodes way := by
  obtain ⟨_, _, seen⟩ := g.explores_search.seals g.sealed_start
  obtain ⟨way, leads⟩ := g.explores_search.leads g.sealed_start (seen listed) (by simp)
  exact ⟨way, leads, fun _ other => other.unique leads⟩

theorem exists_closing_of_mem_cycles (reported : cycle ∈ g.cycles) :
    ∃ node next way, g.Closing node next way ∧ cycle = loopAt way next := by
  rcases g.explores_search.reported_closes g.sealed_start reported with old | closes
  · cases old
  · cases closes with
    | here _ back => cases back
    | @below node way next _ leads edge back => exact ⟨node, next, way, ⟨leads, edge, back⟩, rfl⟩

theorem Closing.reports (closing : g.Closing node next way) : g.search.Reports (loopAt way next) :=
  g.explores_search.reports g.sealed_start
    (.below (List.not_mem_nil) closing.leads closing.edge closing.back)

theorem Closing.isCycle (closing : g.Closing node next way) : g.IsCycle (loopAt way next) := by
  obtain ⟨edges, simple⟩ := closing.leads.simple (fun next _ => .singleton next) List.nodup_nil
  refine closing_cycle ?_ simple closing.back
  refine edges.append (.singleton next) fun last ends first starts => ?_
  rw [List.nil_append, closing.leads.getLast?_eq] at ends
  obtain rfl := Option.some.inj ends
  obtain rfl := Option.some.inj starts
  exact closing.edge

theorem Closing.infix_loopAt (closing : g.Closing node next way) :
    [node, next] <:+: loopAt way next := by
  obtain ⟨before, after, rfl, absent⟩ := List.eq_append_cons_of_mem closing.back
  have last := closing.leads.getLast?_eq
  rw [List.getLast?_append_cons] at last
  obtain ⟨front, ends⟩ := List.getLast?_eq_some_iff.mp last
  rw [loopAt, dropWhile_append_cons absent, ends]
  exact ⟨front, [], by simp⟩

/-- Every cycle has an edge that the search closes. -/
theorem IsCycle.exists_closing (cycle : g.IsCycle ring) :
    ∃ node next way, [node, next] <:+: ring ∧ g.Closing node next way := by
  obtain ⟨start, between, shape⟩ := cycle.turns
  have member : start ∈ ring := shape ▸ List.mem_cons_self ..
  have met : ∃ node ∈ ring, node ∈ g.search.visited := by
    obtain ⟨node, inside, step⟩ := cycle.exists_edge_to member
    obtain ⟨_, _, seen⟩ := g.explores_search.seals g.sealed_start
    exact ⟨node, inside, seen (mem_nodes_of_edge (edge_of_adjacent cycle.edges step))⟩
  obtain ⟨node, _, next, way, step, leads, back⟩ :=
    g.explores_search.closes_ring g.sealed_start cycle (by simp) met
  exact ⟨node, next, way, step, leads, edge_of_adjacent cycle.edges step, back⟩

end Schemata.Graph
