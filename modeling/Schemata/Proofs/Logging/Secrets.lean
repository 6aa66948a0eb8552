import Schemata.Logging.Redaction
import Schemata.Proofs.Json.Parts
import Schemata.Proofs.Keyed

/-! What a log tells of an event. Events that differ in nothing but what stands under sensitive keys
are logged alike, and all else of an event is logged as it is. -/

namespace Schemata

namespace Logging

/-- Whether a name in an object is a sensitive key. -/
def hides : Json → Bool
  | .str key => isSensitive key
  | _ => false

mutual

/-- A value with one and the same value under all sensitive keys, at every depth. -/
def conceal (mark : Json) : Json → Json
  | .obj members => .obj (concealMembers mark members)
  | .mixed entries => .mixed (concealEntries mark entries)
  | .arr items => .arr (concealItems mark items)
  | value => value

def concealItems (mark : Json) : List Json → List Json
  | [] => []
  | item :: rest => conceal mark item :: concealItems mark rest

def concealMembers (mark : Json) : List (String × Json) → List (String × Json)
  | [] => []
  | (key, value) :: rest =>
    (key, if isSensitive key then mark else conceal mark value) :: concealMembers mark rest

def concealEntries (mark : Json) : List (Json × Json) → List (Json × Json)
  | [] => []
  | (key, value) :: rest =>
    (key, if hides key then mark else conceal mark value) :: concealEntries mark rest

end

variable {mark fixed a b value : Json}

theorem concealItems_eq_map (mark : Json) (items : List Json) :
    concealItems mark items = items.map (conceal mark) := by
  induction items with
  | nil => rfl
  | cons item rest ih => rw [concealItems, ih, List.map_cons]

theorem concealMembers_eq_map (mark : Json) (members : Members) : concealMembers mark members =
    members.map fun member =>
      (member.1, if isSensitive member.1 then mark else conceal mark member.2) := by
  induction members with
  | nil => rfl
  | cons member rest ih => rw [concealMembers, ih, List.map_cons]

theorem concealEntries_eq_map (mark : Json) (entries : List (Json × Json)) :
    concealEntries mark entries =
    entries.map fun entry => (entry.1, if hides entry.1 then mark else conceal mark entry.2) := by
  induction entries with
  | nil => rfl
  | cons entry rest ih => rw [concealEntries, ih, List.map_cons]

theorem conceal_of_isScalar (scalar : value.IsScalar) (mark : Json) :
    conceal mark value = value := by
  cases value with
  | arr | obj | mixed => exact scalar.elim
  | _ => rfl

private theorem isScalar_conceal : (conceal mark value).IsScalar ↔ value.IsScalar := by
  cases value <;> rfl

mutual

/-- Redaction conceals with a value of its own. -/
theorem redact_eq_conceal : ∀ value, redact value = conceal redacted value
  | .obj members => by rw [redact, conceal, redactMembers_eq_conceal members]
  | .mixed entries => by rw [redact, conceal, redactEntries_eq_conceal entries]
  | .arr items => by rw [redact, conceal, redactItems_eq_conceal items]
  | .null | .bool _ | .int _ | .double _ | .str _ | .foreign .. => rfl

theorem redactItems_eq_conceal : ∀ items, redactItems items = concealItems redacted items
  | [] => rfl
  | item :: rest => by
    rw [redactItems, concealItems, redact_eq_conceal item, redactItems_eq_conceal rest]

theorem redactMembers_eq_conceal :
    ∀ members, redactMembers members = concealMembers redacted members
  | [] => rfl
  | (key, value) :: rest => by
    rw [redactMembers, concealMembers, redact_eq_conceal value, redactMembers_eq_conceal rest]

theorem redactEntries_eq_conceal :
    ∀ entries, redactEntries entries = concealEntries redacted entries
  | [] => rfl
  | (key, value) :: rest => by
    have named : redactEntries ((key, value) :: rest) =
        (key, if hides key then redacted else redact value) :: redactEntries rest := by
      cases key <;> rfl
    rw [named, concealEntries, redact_eq_conceal value, redactEntries_eq_conceal rest]

end

private theorem conceal_conceal (mark fixed value : Json) :
    conceal mark (conceal fixed value) = conceal mark value := by
  induction value using Json.induction_on_parts with
  | scalar value scalar => rw [conceal_of_isScalar scalar]
  | arr items ih =>
    simp only [conceal, concealItems_eq_map, List.map_map]
    exact congrArg Json.arr (List.map_congr_left ih)
  | obj members ih =>
    simp only [conceal, concealMembers_eq_map, List.map_map]
    refine congrArg Json.obj (List.map_congr_left fun member listed => ?_)
    rw [Function.comp_apply]
    by_cases hidden : isSensitive member.1
    · simp only [if_pos hidden]
    · simp only [if_neg hidden, ih member listed]
  | mixed entries ih =>
    simp only [conceal, concealEntries_eq_map, List.map_map]
    refine congrArg Json.mixed (List.map_congr_left fun entry listed => ?_)
    rw [Function.comp_apply]
    by_cases hidden : hides entry.1
    · simp only [if_pos hidden]
    · simp only [if_neg hidden, ih entry listed]

private theorem concealMembers_concealMembers (mark fixed : Json) (members : Members) :
    concealMembers mark (concealMembers fixed members) = concealMembers mark members := by
  have nested := conceal_conceal mark fixed (.obj members)
  simpa only [conceal, Json.obj.injEq] using nested

/-! ### Equal events -/

/-- Objects whose members are made by one rule stay equal under another one that keeps equal members
equal. -/
theorem same_obj_map (rule next : String → Json → Json) {members others : Members}
    (onward : ∀ member ∈ members, ∀ other, Json.same (rule member.1 member.2)
      (rule member.1 other) = true →
      Json.same (next member.1 member.2) (next member.1 other) = true)
    (alike : Json.same (.obj (members.map fun member => (member.1, rule member.1 member.2)))
      (.obj (others.map fun member => (member.1, rule member.1 member.2))) = true) :
    Json.same (.obj (members.map fun member => (member.1, next member.1 member.2)))
      (.obj (others.map fun member => (member.1, next member.1 member.2))) = true := by
  rw [Json.same_obj_iff, List.length_map, List.length_map] at alike ⊢
  refine ⟨alike.1, fun made listed => ?_⟩
  obtain ⟨member, inside, rfl⟩ := List.mem_map.mp listed
  obtain ⟨found, known, equal⟩ := alike.2 _ (List.mem_map_of_mem inside)
  rw [Keyed.lookup_map] at known ⊢
  obtain ⟨other, there, rfl⟩ := Option.map_eq_some_iff.mp known
  exact ⟨_, Option.map_eq_some_iff.mpr ⟨other, there, rfl⟩, onward member inside other equal⟩

private theorem hides_of_same (alike : Json.same a b = true) : hides a = hides b := by
  cases a with
  | str key => rw [Json.same_str_iff.mp alike]
  | _ =>
    cases b with
    | str key => simp [Json.same, Json.sameScalar, Json.wholeNumber?] at alike
    | _ => rfl

/-- Values that are equal when their secrets are concealed stay equal when these are concealed by
another mark. -/
theorem same_conceal (reflexive : Json.same mark mark = true) (a b : Json)
    (alike : Json.same (conceal fixed a) (conceal fixed b) = true) :
    Json.same (conceal mark a) (conceal mark b) = true := by
  induction a using Json.induction_on_parts generalizing b with
  | scalar value scalar =>
    rw [conceal_of_isScalar scalar] at alike ⊢
    have plain : b.IsScalar := isScalar_conceal.mp (scalar.of_same alike)
    rwa [conceal_of_isScalar plain] at alike ⊢
  | arr items ih =>
    cases b with
    | arr others =>
      simp only [conceal, concealItems_eq_map, Json.same, Json.sameItems_iff,
        List.forall₂_map_left_iff, List.forall₂_map_right_iff] at alike ⊢
      refine ((List.forall₂_and_left _ _).mpr ⟨ih, alike⟩).imp fun item other => ?_
      rintro ⟨onward, equal⟩
      exact onward other equal
    | _ => simp [conceal, Json.same] at alike
  | obj members ih =>
    cases b with
    | obj others =>
      simp only [conceal, concealMembers_eq_map] at alike ⊢
      refine same_obj_map (fun key value => if isSensitive key then fixed else conceal fixed value)
        (fun key value => if isSensitive key then mark else conceal mark value) ?_ alike
      intro member listed other equal
      by_cases hidden : isSensitive member.1
      · simpa only [if_pos hidden] using reflexive
      · simp only [if_neg hidden] at equal ⊢
        exact ih member listed other equal
    | _ => simp [conceal, Json.same] at alike
  | mixed entries ih =>
    cases b with
    | mixed others =>
      simp only [conceal, concealEntries_eq_map, Json.same, Bool.and_eq_true, beq_iff_eq,
        List.length_map, Json.sameEntries_iff, List.forall_mem_map] at alike ⊢
      refine ⟨alike.1, fun entry listed => ?_⟩
      obtain ⟨found, made, named, equal⟩ := alike.2 entry listed
      obtain ⟨other, inside, rfl⟩ := List.mem_map.mp made
      refine ⟨_, List.mem_map_of_mem inside, named, ?_⟩
      -- Equal names are both sensitive or both not.
      rw [← hides_of_same named] at equal ⊢
      by_cases hidden : hides entry.1
      · simpa only [if_pos hidden] using reflexive
      · simp only [if_neg hidden] at equal ⊢
        exact ih entry listed other.2 equal
    | _ => simp [conceal, Json.same] at alike

private theorem same_truncate (limit : Int) (alike : Json.same a b = true) :
    Json.same (truncate limit a) (truncate limit b) = true := by
  cases a with
  | str s =>
    obtain rfl := Json.same_str_iff.mp alike
    rw [truncate]
    split <;> exact Json.same_str_iff.mpr rfl
  | _ =>
    cases b with
    | str t => simp [Json.same, Json.sameScalar, Json.wholeNumber?] at alike
    | _ => exact alike

theorem same_redacted : Json.same redacted redacted = true := Json.same_str_iff.mpr rfl

private theorem loggedEvent_eq_map (limit : Int) (event : Members) :
    loggedEvent limit event = event.map fun member =>
    (member.1, truncate limit (if isSensitive member.1 then redacted
      else conceal redacted member.2)) := by
  rw [loggedEvent, redactMembers_eq_conceal, concealMembers_eq_map, List.map_map]
  rfl

private theorem same_loggedEvent (limit : Int) {event other : Members}
    (alike : Json.same (.obj (concealMembers fixed event)) (.obj (concealMembers fixed other)) =
      true) :
    Json.same (.obj (loggedEvent limit event)) (.obj (loggedEvent limit other)) = true := by
  simp only [loggedEvent_eq_map, concealMembers_eq_map] at alike ⊢
  refine same_obj_map (fun key value => if isSensitive key then fixed else conceal fixed value)
    (fun key value => truncate limit (if isSensitive key then redacted else conceal redacted value))
      ?_ alike
  intro member listed other equal
  refine same_truncate limit ?_
  by_cases hidden : isSensitive member.1
  · simpa only [if_pos hidden] using same_redacted
  · simp only [if_neg hidden] at equal ⊢
    exact same_conceal same_redacted member.2 other equal

/-! ### What a place shows -/

private theorem named_concealEntries (mark : Json) (entries : List (Json × Json)) :
    Json.named (concealEntries mark entries) = concealMembers mark (Json.named entries) := by
  induction entries with
  | nil => rfl
  | cons entry rest ih =>
    obtain ⟨key, value⟩ := entry
    cases key with
    | str name => exact congrArg (_ :: ·) ih
    | _ => exact ih

private theorem members?_conceal (mark value : Json) :
    (conceal mark value).members? = value.members?.map (concealMembers mark) := by
  cases value with
  | mixed entries => exact congrArg some (named_concealEntries mark entries)
  | _ => rfl

private theorem lookup_concealMembers (mark : Json) (members : Members) (name : String) :
    (concealMembers mark members).lookup name =
      (members.lookup name).map fun value => if isSensitive name then mark
        else conceal mark value := by
  rw [concealMembers_eq_map]
  exact Keyed.lookup_map members (fun key value => if isSensitive key then mark
    else conceal mark value) name

/-- Whether a step leads to what stands under a sensitive key. -/
def entersSecret : Step → Bool
  | .key name => isSensitive name
  | .index _ => false

theorem part?_conceal (mark value : Json) (step : Step) : (conceal mark value).part? step =
    (value.part? step).map fun part => if entersSecret step then mark else conceal mark part := by
  cases step with
  | key name =>
    rw [Json.part?, Json.part?, members?_conceal]
    cases value.members? with
    | none => rfl
    | some members => exact lookup_concealMembers mark members name
  | index position =>
    cases value with
    | arr items =>
      simp only [conceal, concealItems_eq_map, Json.part?, entersSecret, List.getElem?_map]
      split <;> simp
    | _ => rfl

private theorem at?_conceal_of_open {place : List Step}
    (visible : ∀ step ∈ place, entersSecret step = false) (mark value : Json) :
    (conceal mark value).at? place = (value.at? place).map (conceal mark) := by
  induction place generalizing value with
  | nil => rfl
  | cons step rest ih =>
    obtain ⟨here, onward⟩ := List.forall_mem_cons.mp visible
    rw [Json.at?, Json.at?, part?_conceal]
    cases value.part? step with
    | none => rfl
    | some part => simpa [here] using ih onward part

theorem outline_conceal (mark value : Json) : (conceal mark value).outline = value.outline := by
  cases value <;>
    simp [conceal, Json.outline, concealItems_eq_map, concealMembers_eq_map, concealEntries_eq_map,
      Function.comp_def]

private theorem at?_conceal_secret {place : List Step} (hidden : isSensitive name = true)
    (scalar : mark.IsScalar) (found : (conceal mark value).at? (place ++ [.key name]) = some part) :
    part = mark := by
  induction place generalizing value with
  | nil =>
    rw [List.nil_append, Json.at?, part?_conceal] at found
    simp only [entersSecret, hidden, if_true, Json.at?] at found
    obtain ⟨_, known, same⟩ := Option.bind_eq_some_iff.mp found
    obtain ⟨_, -, rfl⟩ := Option.map_eq_some_iff.mp known
    exact (Option.some.inj same).symm
  | cons step rest ih =>
    rw [List.cons_append, Json.at?, part?_conceal] at found
    obtain ⟨_, known, onward⟩ := Option.bind_eq_some_iff.mp found
    obtain ⟨_, -, rfl⟩ := Option.map_eq_some_iff.mp known
    split at onward
    · -- The mark has no parts, so the place ends at the first secret.
      rw [scalar.at?_concat] at onward
      cases onward
    · exact ih onward

/-- In an event as it is logged nothing but the mark stands under a sensitive key, and at every
place that is not under such a key stands a list of the same length, an object with the same keys or
the same scalar as in the event. -/
structure Sanitized (event logged : Members) : Prop where
  secrets : ∀ place name part, isSensitive name = true →
    (Json.obj logged).at? (place ++ [.key name]) = some part → part = redacted
  kept : ∀ place, (∀ step ∈ place, entersSecret step = false) →
    ((Json.obj logged).at? place).map Json.outline = ((Json.obj event).at? place).map Json.outline

theorem redactMembers_sanitized (event : Members) : Sanitized event (redactMembers event) where
  secrets place name part hidden found := by
    rw [redactMembers_eq_conceal] at found
    have inside : (conceal redacted (.obj event)).at? (place ++ [.key name]) = some part := found
    exact at?_conceal_secret hidden trivial inside
  kept place visible := by
    have shown := at?_conceal_of_open visible redacted (.obj event)
    rw [redactMembers_eq_conceal]
    rw [conceal] at shown
    rw [shown, Option.map_map]
    exact congrArg (Option.map · _) (funext fun part => outline_conceal redacted part)

/-- A log carries no secret: events that become equal when one value is put under all their
sensitive keys are logged equal, with their texts cut or not. All else is logged as it is, and what
is logged is not changed by logging it again. -/
theorem logged_events_carry_no_secret (event : Members) :
    Sanitized event (redactMembers event) ∧
      redactMembers (redactMembers event) = redactMembers event ∧
      ∀ fixed other,
        (concealMembers fixed event = concealMembers fixed other →
          redactMembers event = redactMembers other ∧
            ∀ limit, loggedEvent limit event = loggedEvent limit other) ∧
        (Json.same (.obj (concealMembers fixed event)) (.obj (concealMembers fixed other)) = true →
          Json.same (.obj (redactMembers event)) (.obj (redactMembers other)) = true ∧
            ∀ limit, Json.same (.obj (loggedEvent limit event)) (.obj (loggedEvent limit other)) =
              true) := by
  refine ⟨redactMembers_sanitized event, ?_, fun fixed other =>
    ⟨fun equal => ?_, fun equal => ⟨?_, fun limit => ?_⟩⟩⟩
  · simp only [redactMembers_eq_conceal, concealMembers_concealMembers]
  · have redacted : redactMembers event = redactMembers other := by
      rw [redactMembers_eq_conceal, ← concealMembers_concealMembers redacted fixed event, equal,
        concealMembers_concealMembers, ← redactMembers_eq_conceal]
    exact ⟨redacted, fun limit => by rw [loggedEvent, redacted, ← loggedEvent]⟩
  · have same := same_conceal same_redacted (.obj event) (.obj other) equal
    rwa [redactMembers_eq_conceal, redactMembers_eq_conceal]
  · exact same_loggedEvent limit equal

/-- A visit with secrets of its own, in a list of lists and in an object in a list. -/
def visit (key token : Json) : Members :=
  [("user", .str "ada"), ("API_KEY", key),
    ("calls", .arr [.arr [.obj [("auth_token", token), ("n", .int 1)]], .obj [("password", key)]])]

/-- Visits are logged alike whatever their secrets are, and in whatever order their members
stand. -/
theorem visits_carry_no_secret :
    let one := visit (.str "k-1") (.str "abc")
    let two := visit .null (.arr [.int 7])
    concealMembers .null one = concealMembers .null two ∧
      Json.same (.obj (concealMembers .null one)) (.obj (concealMembers .null two.reverse)) = true ∧
      redactMembers one = visit redacted redacted ∧ redactMembers two = redactMembers one ∧
      Json.same (.obj (loggedEvent 2 one)) (.obj (loggedEvent 2 two.reverse)) = true ∧
      Sanitized one (redactMembers one) := by
  intro one two
  have concealed : concealMembers .null one = concealMembers .null two := by decide +kernel
  have reordered :
      Json.same (.obj (concealMembers .null one)) (.obj (concealMembers .null two.reverse)) =
      true := by
    decide +kernel
  obtain ⟨sanitized, -, alike⟩ := logged_events_carry_no_secret one
  have logged := (alike .null two).1 concealed
  have either := (alike .null two.reverse).2 reordered
  exact ⟨concealed, reordered, by decide +kernel, logged.1.symm, either.2 2, sanitized⟩

end Logging

end Schemata
