import Schemata.Keyed

/-! Entries under names. What is put last under a name is found there; and where the names are all
different, putting them together changes nothing, and each entry is found under its name, whether
the name stands beside the value or is part of it. Names keep their places, and new ones come behind
them. -/

namespace Schemata.Keyed

theorem put_of_not_mem {entries : Keyed α} (fresh : name ∉ entries.keys) (value : α) :
    entries.put name value = entries ++ [(name, value)] := by
  induction entries with
  | nil => rfl
  | cons head rest ih =>
    obtain ⟨key, old⟩ := head
    simp only [keys, List.map_cons, List.mem_cons, not_or] at fresh
    have different : key ≠ name := fun same => fresh.1 same.symm
    rw [put, if_neg different, ih fresh.2, List.cons_append]

theorem merge_eq_append (entries changes : Keyed α) (distinct : (entries ++ changes).keys.Nodup) :
    entries.merge changes = entries ++ changes := by
  induction changes generalizing entries with
  | nil => simp [merge]
  | cons change rest ih =>
    obtain ⟨name, value⟩ := change
    have fresh : name ∉ entries.keys := by
      simp only [keys, List.map_append, List.map_cons] at distinct
      exact fun member => (List.nodup_append.mp distinct).2.2 name member name (by simp) rfl
    have step := ih (entries.put name value) (by
      rw [put_of_not_mem fresh]
      simpa using distinct)
    rw [put_of_not_mem fresh] at step
    simpa [merge, put_of_not_mem fresh] using step

theorem ofList_eq_self {entries : List (String × α)} (distinct : (entries.map (·.1)).Nodup) :
    ofList entries = entries := merge_eq_append [] entries distinct

theorem lookup_of_mem {entries : Keyed α} (distinct : entries.keys.Nodup)
    (member : (name, value) ∈ entries) : entries.lookup name = some value := by
  obtain ⟨before, after, split⟩ := List.append_of_mem member
  rw [keys, split, List.map_append, List.map_cons] at distinct
  refine List.lookup_eq_some_iff.mpr ⟨before, after, split, fun earlier inside => bne_iff_ne.mpr ?_⟩
  exact ((List.nodup_append.mp distinct).2.2 earlier.1
    (List.mem_map_of_mem inside) name (List.mem_cons_self ..)).symm

theorem mem_of_lookup {entries : Keyed α} (found : entries.lookup name = some value) :
    (name, value) ∈ entries := by
  obtain ⟨before, after, split, _⟩ := List.lookup_eq_some_iff.mp found
  simp [split]

theorem lookup_map (entries : Keyed α) (change : String → α → β) (name : String) :
    List.lookup name (entries.map fun entry => (entry.1, change entry.1 entry.2)) =
      (entries.lookup name).map (change name) := by
  induction entries with
  | nil => rfl
  | cons head rest ih =>
    obtain ⟨key, value⟩ := head
    by_cases same : name = key
    · subst same
      simp
    · simp [List.lookup_cons, beq_eq_false_iff_ne.mpr same, ih]

theorem lookup_merge (entries changes : Keyed α) (name : String) :
    (entries.merge changes).lookup name = (changes.reverse.lookup name).or
      (entries.lookup name) := by
  induction changes generalizing entries with
  | nil => rfl
  | cons change rest ih =>
    obtain ⟨key, value⟩ := change
    rw [merge, List.foldl_cons, ← merge, ih, lookup_put, List.reverse_cons, List.lookup_append,
      Option.or_assoc]
    by_cases same : name = key
    · simp [same]
    · simp [same, List.lookup_cons, beq_eq_false_iff_ne.mpr same]

theorem lookup_reverse_eq_none_iff {entries : Keyed α} :
    entries.reverse.lookup name = none ↔ entries.lookup name = none := by
  simp [List.lookup_eq_none_iff]

theorem lookup_merge_congr {entries others : Keyed α} (changes : Keyed α)
    (alike : entries.lookup key = others.lookup key) :
    (entries.merge changes).lookup key = (others.merge changes).lookup key := by
  rw [lookup_merge, lookup_merge, alike]

theorem lookup_merge_of_not_mem {changes : Keyed α} (absent : name ∉ changes.keys)
    (entries : Keyed α) :
    (entries.merge changes).lookup name = entries.lookup name := by
  have missing : changes.lookup name = none :=
    List.lookup_eq_none_iff.mpr fun entry inside => bne_iff_ne.mpr fun same =>
      absent (List.mem_map.mpr ⟨entry, inside, same.symm⟩)
  rw [lookup_merge, lookup_reverse_eq_none_iff.mpr missing, Option.none_or]

theorem lookup_merge_of_mem {changes : Keyed α} (given : (name, value) ∈ changes)
    (only : ∀ entry ∈ changes, entry.1 = name → entry.2 = value) (entries : Keyed α) :
    (entries.merge changes).lookup name = some value := by
  rw [lookup_merge]
  cases found : changes.reverse.lookup name with
  | none =>
    have absent := List.lookup_eq_none_iff.mp (lookup_reverse_eq_none_iff.mp found) _ given
    simp at absent
  | some other =>
    have same : other = value := only _ (List.mem_reverse.mp (mem_of_lookup found)) rfl
    rw [same, Option.some_or]

theorem lookup_filter {entries : Keyed α} (distinct : entries.keys.Nodup) (keep : α → Bool)
    (name : String) :
    List.lookup name (entries.filter fun entry => keep entry.2) =
      (entries.lookup name).filter keep := by
  have kept : (keys (entries.filter fun entry => keep entry.2)).Nodup :=
    distinct.sublist (List.filter_sublist.map _)
  refine Option.ext fun value => ?_
  rw [Option.filter_eq_some_iff]
  constructor
  · intro found
    obtain ⟨member, accepted⟩ := List.mem_filter.mp (mem_of_lookup found)
    exact ⟨lookup_of_mem distinct member, accepted⟩
  · rintro ⟨found, accepted⟩
    exact lookup_of_mem kept (List.mem_filter.mpr ⟨mem_of_lookup found, accepted⟩)

/-- Where the keys of values are all different, no value before or after one of them has its key. -/
theorem exists_split {values : List α} {key : α → String} (distinct : (values.map key).Nodup)
    (member : value ∈ values) : ∃ before after, values = before ++ value :: after ∧
      (∀ other ∈ before, key other ≠ key value) ∧ ∀ other ∈ after, key other ≠ key value := by
  obtain ⟨before, after, rfl⟩ := List.append_of_mem member
  rw [List.map_append, List.map_cons, List.nodup_append, List.nodup_cons] at distinct
  obtain ⟨-, ⟨fresh, -⟩, apart⟩ := distinct
  refine ⟨before, after, rfl, fun other inside => ?_, fun other inside same => ?_⟩
  · exact apart _ (List.mem_map_of_mem inside) _ (List.mem_cons_self ..)
  · exact fresh (same ▸ List.mem_map_of_mem inside)

theorem find?_eq_some_iff {values : List α} {key : α → String} (distinct : (values.map key).Nodup) :
    values.find? (fun value => key value == name) = some value ↔
      value ∈ values ∧ key value = name := by
  constructor
  · intro found
    exact ⟨List.mem_of_find?_eq_some found, by simpa using List.find?_some found⟩
  · rintro ⟨member, rfl⟩
    obtain ⟨before, after, split, apart, -⟩ := exists_split distinct member
    refine List.find?_eq_some_iff_append.mpr ⟨by simp, before, after, split,
      fun earlier inside => ?_⟩
    simpa using apart earlier inside

theorem find?_reverse_eq_some_iff {values : List α} {key : α → String}
    (distinct : (values.map key).Nodup) :
    values.reverse.find? (fun value => key value == name) = some value ↔
      value ∈ values ∧ key value = name := by
  have reversed : (values.reverse.map key).Nodup := by
    rw [List.map_reverse]
    exact List.pairwise_reverse.mpr (distinct.imp Ne.symm)
  rw [find?_eq_some_iff reversed, List.mem_reverse]

/-- Under distinct keys the blocks of the values do not mix: what belongs to a key is the block of
its value. -/
theorem filter_flatMap {values : List α} {key : α → String} {block : α → List β}
    {owner : β → Option String} (owned : ∀ value, ∀ part ∈ block value, owner part =
      some (key value))
    (distinct : (values.map key).Nodup) (member : value ∈ values) :
    ((values.flatMap block).filter fun part => owner part = some (key value)) = block value := by
  have own : ((block value).filter fun part => owner part = some (key value)) = block value :=
    List.filter_eq_self.mpr fun part inside => decide_eq_true (owned value part inside)
  have foreign : ∀ other, key other ≠ key value →
      ((block other).filter fun part => owner part = some (key value)) = [] := by
    intro other differs
    refine List.filter_eq_nil_iff.mpr fun part inside claimed => differs ?_
    exact Option.some.inj ((owned other part inside).symm.trans (of_decide_eq_true claimed))
  obtain ⟨before, after, rfl, left, right⟩ := exists_split distinct member
  rw [List.filter_flatMap, List.flatMap_append, List.flatMap_cons, own,
    List.flatMap_eq_nil_iff.mpr fun other inside => foreign other (left other inside),
    List.flatMap_eq_nil_iff.mpr fun other inside => foreign other (right other inside)]
  simp

theorem lookup_filter_key (entries : Keyed α) (keep : String → Bool) (name : String) :
    List.lookup name (entries.filter fun entry => keep entry.1) =
      if keep name then entries.lookup name else none := by
  induction entries with
  | nil => simp
  | cons head rest ih =>
    obtain ⟨key, value⟩ := head
    by_cases same : name = key
    · subst same
      by_cases kept : keep name
      · rw [List.filter_cons_of_pos (by simpa using kept)]
        simp [kept]
      · rw [List.filter_cons_of_neg (by simpa using kept), ih, if_neg kept, if_neg kept]
    · have other : (name == key) = false := beq_eq_false_iff_ne.mpr same
      rw [List.lookup_cons, other, ← ih, List.filter_cons]
      split
      · rw [List.lookup_cons, other]
      · rfl

/-- A value that is entered under its own key is found there, the first one of that key. -/
theorem lookup_map_key (values : List β) (key : β → String) (entry : β → α) (name : String) :
    List.lookup name (values.map fun value => (key value, entry value)) =
      (values.find? fun value => key value == name).map entry := by
  induction values with
  | nil => rfl
  | cons value rest ih =>
    by_cases same : key value = name
    · simp [same]
    · simp [List.lookup_cons, same, beq_eq_false_iff_ne.mpr (Ne.symm same), ih]

theorem isSome_lookup_iff {entries : Keyed α} : (entries.lookup name).isSome = true ↔
    name ∈ entries.keys := by
  simp only [keys, List.mem_map, List.lookup_isSome_iff, beq_iff_eq, eq_comm (a := name)]

theorem lookup_eq_none_iff {entries : Keyed α} : entries.lookup name = none ↔
    name ∉ entries.keys := by
  rw [← isSome_lookup_iff, Bool.not_eq_true, Option.isSome_eq_false_iff, Option.isNone_iff_eq_none]

theorem keys_put (entries : Keyed α) (name : String) (value : α) :
    (entries.put name value).keys = if name ∈ entries.keys then entries.keys
      else entries.keys ++ [name] := by
  split
  · rename_i present
    induction entries with
    | nil => cases present
    | cons head rest ih =>
      obtain ⟨key, old⟩ := head
      by_cases same : key = name
      · simp [put, keys, same]
      · have later : name ∈ keys rest := by simpa [keys, Ne.symm same] using present
        simpa [put, keys, same] using ih later
  · rename_i fresh
    rw [put_of_not_mem fresh, keys, List.map_append]
    rfl

theorem nodup_keys_put {entries : Keyed α} (distinct : entries.keys.Nodup)
    (name : String) (value : α) :
    (entries.put name value).keys.Nodup := by
  rw [keys_put]
  split
  · exact distinct
  · rename_i fresh
    exact List.nodup_append.mpr ⟨distinct, by simp, fun a inside b new same =>
      fresh (List.mem_singleton.mp new ▸ same ▸ inside)⟩

theorem nodup_keys_merge {entries : Keyed α} (distinct : entries.keys.Nodup) (changes : Keyed α) :
    (entries.merge changes).keys.Nodup := by
  induction changes generalizing entries with
  | nil => exact distinct
  | cons change rest ih => exact ih (nodup_keys_put distinct _ _)

private theorem eraseDups_of_nodup {names : List String} (distinct : names.Nodup) :
    names.eraseDups = names := by
  induction names with
  | nil => rfl
  | cons name rest ih =>
    obtain ⟨fresh, distinct⟩ := List.nodup_cons.mp distinct
    have kept : (rest.filter fun other => !other == name) = rest :=
      List.filter_eq_self.mpr fun other inside => by
        have differs : other ≠ name := fun same => fresh (same ▸ inside)
        simpa using differs
    rw [List.eraseDups_cons, kept, ih distinct]

/-- Names that are there keep their places, and new ones come behind them in the order of first
mention. -/
theorem keys_merge {entries : Keyed α} (distinct : entries.keys.Nodup) (changes : Keyed α) :
    (entries.merge changes).keys = (entries.keys ++ changes.keys).eraseDups := by
  induction changes generalizing entries with
  | nil => simpa [merge, keys] using (eraseDups_of_nodup distinct).symm
  | cons change rest ih =>
    obtain ⟨name, value⟩ := change
    have step : (merge entries ((name, value) :: rest)).keys =
        ((entries.put name value).keys ++ keys rest).eraseDups :=
          ih (nodup_keys_put distinct name value)
    rw [step, keys_put]
    split
    · rename_i present
      have known : (name :: keys rest).removeAll entries.keys =
          (keys rest).removeAll entries.keys := by
        simp [List.removeAll, present]
      rw [List.eraseDups_append, ← known, ← List.eraseDups_append]
      rfl
    · rw [List.append_assoc]
      rfl

theorem merge_append {entries changes : Keyed α}
    (fresh : ∀ change ∈ changes, change.1 ∉ entries.keys) (others : Keyed α) :
    merge (entries ++ others) changes = entries ++ merge others changes := by
  induction changes generalizing others with
  | nil => rfl
  | cons change rest ih =>
    obtain ⟨name, value⟩ := change
    have behind : put (entries ++ others) name value = entries ++ put others name value := by
      have absent := fresh _ (List.mem_cons_self ..)
      clear ih fresh
      induction entries with
      | nil => rfl
      | cons head entries ih =>
        obtain ⟨key, old⟩ := head
        simp only [keys, List.map_cons, List.mem_cons, not_or] at absent
        rw [List.cons_append, put, if_neg (Ne.symm absent.1), ih absent.2, List.cons_append]
    rw [merge, List.foldl_cons, behind]
    exact ih (fun change inside => fresh change (List.mem_cons_of_mem _ inside)) _

end Schemata.Keyed
