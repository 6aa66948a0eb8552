import Schemata.Proofs.Refinement.Calls
import Schemata.Proofs.Schema.RoundTrip

/-! Replies that come in late. While a request waits, other calls may move the zipper of a session.
The changes of the reply are applied to the schema that is current when it comes in, which is the
one that was sent only if those calls lead back to it. -/

namespace Schemata

/-- A call that waits for nothing. -/
inductive Move where
  | load (schema : Json)
  | accept (schema : Json)
  | undo
  | redo

def Move.command : Move → Command
  | .load schema => .load schema
  | .accept schema => .accept schema
  | .undo => .undo
  | .redo => .redo

/-- Where a move leads. Data that is no schema and steps over an end lead nowhere. -/
def SchemaZipper.move (z : SchemaZipper) : Move → SchemaZipper
  | .load value => match Schema.decode value with
    | .valid schema => .start schema
    | .invalid _ => z
  | .accept value => match Schema.decode value with
    | .valid schema => z.accept schema
    | .invalid _ => z
  | .undo => z.undo?.getD z
  | .redo => z.redo?.getD z

namespace Dialogue

private theorem perform_move (terms : Terms) (now : Instant) (d : Dialogue) (m : Move) :
    (d.perform terms now m.command).1.timeline.zipper = d.timeline.zipper.move m := by
  cases m with
  | load value =>
    simp only [Move.command, perform, simple, withSchema, SchemaZipper.move]
    cases Schema.decode value <;> rfl
  | accept value =>
    simp only [Move.command, perform, simple, withSchema, SchemaZipper.move]
    cases Schema.decode value with
    | valid schema => exact d.timeline.zipper_accept schema
    | invalid errors => rfl
  | undo =>
    simp only [Move.command, perform, simple, undo, SchemaZipper.move, ← d.timeline.zipper_undo]
    cases d.timeline.undo? <;> rfl
  | redo =>
    simp only [Move.command, perform, simple, redo, SchemaZipper.move, ← d.timeline.zipper_redo]
    cases d.timeline.redo? <;> rfl

theorem performAll_moves (terms : Terms) (now : Instant) (d : Dialogue) (moves : List Move) :
    (d.performAll terms now (moves.map Move.command)).1.timeline.zipper =
      moves.foldl SchemaZipper.move d.timeline.zipper := by
  induction moves generalizing d with
  | nil => rfl
  | cons m rest ih =>
    rw [List.foldl_cons, ← perform_move terms now, ← ih]
    rfl

/-- What passes as a candidate without a schema of its own is a revision of the current schema. -/
theorem revise_of_candidate? {reply : Reply} {current : Schema} (changes : reply.schema? = none)
    (made : reply.candidate? current = some (.ok candidate))
    (accepted : (validate (.raw (.obj candidate)) limits).accepted? = some schema) :
    ∃ parsed, Change.parseAll (reply.changes.map .obj) = .ok parsed ∧
      current.revise parsed = .ok schema := by
  rw [Reply.candidate?, changes] at made
  simp only [Option.ite_none_left_eq_some, Bool.not_eq_true', Bool.not_eq_false,
    Option.some.injEq] at made
  obtain ⟨writable, applied⟩ := made
  cases read : Change.parseAll (reply.changes.map .obj) with
  | error e => simp [read, bind, Except.bind] at applied
  | ok parsed =>
    simp only [read, bind, Except.bind] at applied
    refine ⟨parsed, rfl, ?_⟩
    cases shape : Schema.ofMembers candidate with
    | invalid errors => simp [validate, checkShape, shape, Validation.accepted?] at accepted
    | valid other =>
      simp only [validate, checkShape, Json.members?_obj, shape, Validation.accepted?,
        Option.ite_none_right_eq_some] at accepted
      simp [Schema.revise, writable, applied, shape, Option.some.inj accepted.2]

/-- A reply without a schema of its own is accepted only as a revision of the current schema. -/
theorem conclude_revises {d : Dialogue} (settled : response.settle terms.timeout = .ok reply)
    (changes : reply.schema? = none) (concluded : d.conclude terms now response = (next, some o))
    (accepted : o.schema? = some schema) :
    ∃ parsed, Change.parseAll (reply.changes.map .obj) = .ok parsed ∧
      d.timeline.current.revise parsed = .ok schema := by
  -- All ways but the last, a candidate that passes the rules, end without a new schema.
  simp only [conclude, settled] at concluded
  split at concluded
  · cases concluded
    cases accepted
  · split at concluded
    · cases concluded
    · cases concluded
      cases accepted
    · rename_i candidate made
      simp only [propose] at concluded
      split at concluded
      · cases concluded
        cases accepted
      · rename_i passed
        cases concluded
        exact revise_of_candidate? changes made (passed.trans accepted)

end Dialogue

/-- Moves are no requests, so the collaborator sees nothing after the request that waits. -/
theorem lastRequest?_moves (first? : Option Request) (moves : List Move) (seen : List Observation) :
    lastRequest? first? ((moves.map Move.command).zip seen) = first? := by
  induction moves generalizing seen with
  | nil => rfl
  | cons m rest ih =>
    cases seen with
    | nil => rfl
    | cons one others => cases m <;> exact ih others

theorem Effect.ofOutcome?_eq_outcome_iff (outcome? : Option Outcome) (o : Outcome) :
    ofOutcome? outcome? = .outcome o ↔ outcome? = some o := by
  cases outcome? <;> simp [ofOutcome?, Option.elim]

/-- Whether a request was seen to be accepted. -/
def Observation.accepted (seen : Observation) : Bool :=
  match seen.effect with
  | .outcome o => o.accepted
  | _ => false

theorem Observation.accepted_iff (seen : Observation) :
    seen.accepted = true ↔ ∃ o schema, seen.effect = .outcome o ∧ o.schema? = some schema := by
  unfold accepted
  split
  · rename_i o effect
    simp [effect, Outcome.accepted, Option.isSome_iff_exists]
  · rename_i other
    constructor
    · simp
    · rintro ⟨o, schema, effect, -⟩
      exact absurd effect (other o)

namespace Session

variable {d : Dialogue}

/-- A schema was made from another one by changes, and is the current one directly behind it. -/
structure Lands (session : Session) (base : Schema) (changes : List Members)
    (schema : Schema) : Prop where
  made : ∃ parsed, Change.parseAll (changes.map .obj) = .ok parsed ∧ base.revise parsed = .ok schema
  placed : ∃ before, session.history = before ++ [base, schema] ∧ session.index = before.length + 1

/-- Behind an accepted schema there is nothing, and in front of it the one that was current. -/
theorem placed_iff {session : Session} {z : SchemaZipper}
    (line : session.zipper? = some (z.accept schema)) :
    (∃ before, session.history = before ++ [base, schema] ∧ session.index = before.length + 1) ↔
      z.current = base := by
  obtain ⟨d, rfl, zipper⟩ := Option.map_eq_some_iff.mp line
  have history : d.timeline.schemas = z.past.reverse ++ [z.current, schema] := by
    rw [← d.timeline.history_zipper, zipper]
    simp [SchemaZipper.history, SchemaZipper.accept]
  have index : d.timeline.index = z.past.length + 1 := by
    rw [← d.timeline.length_past_zipper, zipper]
    rfl
  simp only [Session.history, Session.index, Option.elim_some, history, index]
  constructor
  · rintro ⟨before, lists, -⟩
    exact (List.cons.inj (List.append_inj' lists rfl).2).1
  · rintro rfl
    exact ⟨z.past.reverse, rfl, by simp⟩

/-- A request that comes to the collaborator waits while other commands are performed. -/
theorem perform_waiting (now : Instant) (ready : d.waiting = false) (text : String)
    (sent : (d.ask terms.window now text).2.hindrance? terms.timeout = none)
    (meanwhile : List Command) (response : Response) :
    let waited := (d.ask terms.window now text).1.performAll terms now meanwhile
    let ended := waited.1.conclude terms now response
    perform terms now (some d) (.submit text meanwhile response) =
      (some ended.1, .mk (.ofOutcome? ended.2) (some ended.1)
        (lastRequest? (some (d.ask terms.window now text).2) (meanwhile.zip waited.2))
          waited.2) := by
  simp [perform, Dialogue.perform, ready, sent]

/-- A request that is kept from the collaborator is never accepted. -/
theorem perform_hindered (now : Instant) (ready : d.waiting = false) (text : String)
    (hindered : (d.ask terms.window now text).2.hindrance? terms.timeout = some hindrance)
    (failed : hindrance.settle terms.timeout = .error error) (meanwhile : List Command)
    (response : Response) :
    ∃ o, (perform terms now (some d) (.submit text meanwhile response)).2.effect = .outcome o ∧
      o.schema? = none := by
  simp only [perform, Dialogue.perform, ready, hindered, Dialogue.conclude, failed]
  exact ⟨_, rfl, rfl⟩

/-- An accepted request was put with the schema that was current, and its reply was worked out where
the moves in the meantime had led. -/
theorem submit_concludes {d : Dialogue} {moves : List Move} (ready : d.waiting = false)
    (ran : perform terms now (some d) (.submit text (moves.map Move.command) response) =
      (next, seen))
    (ended : seen.effect = .outcome o) (accepted : o.schema? = some schema) :
    ∃ (request : Request) (later last : Dialogue), seen.request? = some request ∧
      request.schema = d.timeline.current ∧
      later.timeline.zipper = moves.foldl SchemaZipper.move d.timeline.zipper ∧
      later.conclude terms now response = (last, some o) ∧ next = some last := by
  rcases Dialogue.hindrance?_cases (d.ask terms.window now text).2 terms.timeout with
    ⟨hindrance, error, hindered, failed⟩ | ⟨sent, -⟩
  · obtain ⟨other, effect, refused⟩ :=
      perform_hindered now ready text hindered failed (moves.map Move.command) response
    rw [ran, ended] at effect
    obtain rfl := Effect.outcome.inj effect
    exact absurd (accepted.symm.trans refused) (by simp)
  · rw [perform_waiting now ready text sent] at ran
    obtain ⟨rfl, rfl⟩ := Prod.mk.inj ran
    have line := Dialogue.performAll_moves terms now (d.ask terms.window now text).1 moves
    refine ⟨_, _, _, lastRequest?_moves _ moves _, rfl, line, ?_, rfl⟩
    exact Prod.ext rfl ((Effect.ofOutcome?_eq_outcome_iff _ o).mp ended)

/-- Where the schema of an accepted reply ends up. -/
theorem submit_places {d : Dialogue} {moves : List Move} (ready : d.waiting = false)
    (ran : perform terms now (some d) (.submit text (moves.map Move.command) response) =
      (next, seen))
    (ended : seen.effect = .outcome o) (accepted : o.schema? = some schema) :
    next.zipper? = some ((moves.foldl SchemaZipper.move d.timeline.zipper).accept schema) := by
  obtain ⟨request, later, last, -, -, line, concluded, rfl⟩ :=
    submit_concludes ready ran ended accepted
  rcases later.conclude_cases terms now response with ⟨_, _, made, answered⟩ | ⟨-, made⟩
  · obtain ⟨rfl, same⟩ := Prod.mk.inj (concluded.symm.trans made)
    obtain rfl := Option.some.inj same
    have timeline := answered.timeline
    rw [accepted, Option.elim_some] at timeline
    rw [zipper?, Option.map_some, timeline, Timeline.zipper_accept, line]
  · cases concluded.symm.trans made

/-! ### Deals in two versions -/

/-- The second version of the deals. -/
def laterDeals : Schema := { Schema.deals with version := "2.0.0" }

/-- A talk that has gone on from the deals to their second version. -/
def dealsTalk : Dialogue := (Dialogue.start 0 (.ofSeconds 1) .deals).accept laterDeals

/-- The reply that adds a phone number to companies. -/
def phoneReply : Reply where
  intent := .addColumn
  reasoning := ""
  changes := [[("type", .str "add"), ("target", .str "column"), ("tableName", .str "company"),
    ("changes", .obj [("name", .str "phone"), ("type", .str "TEXT")])]]
  schema? := none
  message := ""

def usualTerms : Terms := ⟨⟨0x404E000000000000⟩, 5, .standard⟩

/-- What comes of asking for the phone number with some moves in the meantime. -/
def askForPhone (moves : List Move) : Session × Observation :=
  perform usualTerms (.ofSeconds 2) (some dealsTalk)
    (.submit "Add a phone number" (moves.map Move.command) (.reply phoneReply))

private theorem dealsTalk_reached : afterCalls usualTerms none
    [(.ofSeconds 1, .load Schema.deals.payload), (.ofSeconds 1, .accept laterDeals.payload)] =
      some dealsTalk := by
  have first : Schema.deals.settled = .deals := rfl
  have second : laterDeals.settled = laterDeals := rfl
  simp [afterCalls, perform, beforeLoad, withSchema, Call.command, Dialogue.perform,
    Dialogue.simple, Schema.decode_payload, first, second, dealsTalk]

/-- A reply with changes lands on the schema to which the moves in the meantime have led: the
accepted schema is made from that one and stands directly behind it. It lands on the schema that was
sent only if the moves have led back there. -/
theorem late_reply_lands (terms : Terms) (now : Instant) (d : Dialogue) (text : String)
    (moves : List Move) (response : Response) (reply : Reply) (next : Session) (seen : Observation)
    (o : Outcome) (schema : Schema) (ready : d.waiting = false)
    (settled : response.settle terms.timeout = .ok reply) (changes : reply.schema? = none)
    (ran : perform terms now (some d) (.submit text (moves.map Move.command) response) =
      (next, seen))
    (ended : seen.effect = .outcome o) (accepted : o.schema? = some schema) :
    ∃ request, seen.request? = some request ∧ request.schema = d.timeline.current ∧
      let landed := moves.foldl SchemaZipper.move d.timeline.zipper
      next.zipper? = some (landed.accept schema) ∧ next.Lands landed.current reply.changes schema ∧
        (next.Lands request.schema reply.changes schema ↔ landed.current = request.schema) := by
  obtain ⟨request, later, last, asked, sent, line, concluded, rfl⟩ :=
    submit_concludes ready ran ended accepted
  have placed := submit_places ready ran ended accepted
  have current :
      later.timeline.current = (moves.foldl SchemaZipper.move d.timeline.zipper).current :=
    congrArg SchemaZipper.current line
  have made := Dialogue.conclude_revises settled changes concluded accepted
  rw [current] at made
  have lands := Lands.mk made ((placed_iff placed).mpr rfl)
  refine ⟨request, asked, sent, placed, lands, fun straight =>
    (placed_iff placed).mp straight.placed, fun back => ?_⟩
  rw [← back]
  exact lands

/-- Undone and redone in the meantime, the second version gets the phone number that was asked for
there. -/
theorem phone_lands : dealsTalk.waiting = false ∧
    (Response.reply phoneReply).settle usualTerms.timeout = .ok phoneReply ∧
    phoneReply.schema? = none ∧ ∃ next seen o schema, askForPhone [.undo, .redo] = (next, seen) ∧
      seen.effect = .outcome o ∧ o.schema? = some schema ∧
      next.Lands laterDeals phoneReply.changes schema := by
  obtain ⟨o, schema, ended, accepted⟩ :=
    (askForPhone [.undo, .redo]).2.accepted_iff.mp (by decide +kernel)
  obtain ⟨request, -, sent, -, -, lands⟩ := late_reply_lands usualTerms (.ofSeconds 2) dealsTalk
    "Add a phone number" [.undo, .redo] (.reply phoneReply) phoneReply _ _ o schema rfl rfl rfl rfl
    ended accepted
  rw [sent] at lands
  exact ⟨rfl, rfl, rfl, _, _, o, schema, rfl, ended, accepted, lands.mpr rfl⟩

/-- Not every reply lands where it was asked for: with the second version undone in the meantime,
the first one gets the phone number. -/
theorem late_reply_strays : ¬ ∀ (terms : Terms) (calls : List (Instant × Call)) (now : Instant)
    (d : Dialogue) (text : String) (moves : List Move) (response : Response) (reply : Reply)
    (next : Session) (seen : Observation) (o : Outcome) (schema : Schema) (request : Request),
    afterCalls terms none calls = some d → response.settle terms.timeout = .ok reply →
    reply.schema? = none →
    perform terms now (some d) (.submit text (moves.map Move.command) response) = (next, seen) →
    seen.effect = .outcome o → o.schema? = some schema → seen.request? = some request →
    next.Lands request.schema reply.changes schema := by
  intro straight
  obtain ⟨o, schema, ended, accepted⟩ := (askForPhone [.undo]).2.accepted_iff.mp (by decide +kernel)
  have ran : askForPhone [.undo] = (_, _) := rfl
  obtain ⟨request, -, -, asked, sent, -⟩ := submit_concludes rfl ran ended accepted
  have lands := straight _ _ _ _ _ _ _ phoneReply _ _ o schema request dealsTalk_reached rfl rfl ran
    ended accepted asked
  rw [sent] at lands
  have back := (placed_iff (submit_places rfl ran ended accepted)).mp lands.placed
  exact absurd (congrArg Schema.version back) (by decide)

end Session

end Schemata
