import Schemata.Refinement.Edit
import Schemata.Refinement.Reply
import Schemata.Refinement.Timeline
import Schemata.Rules.Validation
import Schemata.Time.Instant

/-! The talk about one schema. A request goes to the collaborator; what comes back changes the
schema only when it can be read, can be applied and passes the rules. -/

namespace Schemata

inductive Speaker where
  | user | assistant | system
  deriving DecidableEq, Repr

def Speaker.word : Speaker → String
  | .user => "user"
  | .assistant => "assistant"
  | .system => "system"

/-- A message. Messages are numbered over the whole session. -/
structure Message where
  number : Nat
  speaker : Speaker
  content : String
  time : Instant
  metadata : Members
  deriving DecidableEq

namespace Message

def id (m : Message) : String := "msg-" ++ Time.padded 12 m.number

def toJson (m : Message) : Json :=
  .obj [("id", .str m.id), ("role", .str m.speaker.word), ("content", .str m.content),
    ("timestamp", .str m.time.text), ("metadata", .obj m.metadata)]

end Message

/-- The terms of a session: how long a reply may take in seconds, how many messages the collaborator
gets to see, and the bounds for schemas. -/
structure Terms where
  timeout : Binary64
  window : Int
  limits : Limits

/-- What the collaborator gets to see. -/
structure Request where
  message : String
  schema : Schema
  lastMessages : List Message

/-- A request in writing, unless its schema cannot be written out. -/
def Request.payload? (r : Request) : Option Json := do
  let schema ← r.schema.payload?
  return .obj [("message", .str r.message), ("current_schema", schema),
    ("last_messages", .arr (r.lastMessages.map Message.toJson))]

/-- What came of asking the collaborator: a reply as data or already read, a failure that it reports
itself, any other failure, or nothing in time. -/
inductive Response where
  | data (value : Json)
  | reply (reply : Reply)
  | unavailable (message : String)
  | failed (message : String)
  | late

/-- What keeps a request from the collaborator. One that may not take any time is late at once. All
others are put in writing, and for one that cannot be written out this is a failure of the
collaborator. -/
def Request.hindrance? (r : Request) (timeout : Binary64) : Option Response :=
  if timeout.isAtMostZero then some .late
  else if r.payload?.isNone then some (.failed Json.heightText)
  else none

/-- The reply, or why there is none. -/
def Response.settle (timeout : Binary64) : Response → Except String Reply
  | .data value => (Reply.parse value).mapError ReplyError.message
  | .reply given => .ok given
  | .unavailable text => .error text
  | .failed text => .error s!"AI service failed: {text}"
  | .late => .error s!"AI service timed out after {timeout.toBrief}s"

namespace Reply

/-- Whether there is anything to apply. -/
def proposes (r : Reply) : Bool := !r.changes.isEmpty || r.schema?.isSome

/-- The proposed schema, not checked yet: the whole one that the reply gives, or the current one
with the changes applied. Nothing at all is proposed where the current schema cannot be written
out. -/
def candidate? (r : Reply) (current : Schema) : Option (Except ChangeError Members) :=
  match r.schema? with
  | some members => some (.ok members)
  | none =>
    if !current.isWritable then none
    else some do
      let changes ← Change.parseAll (r.changes.map .obj)
      Change.applyAll (current.members .omitted) changes

end Reply

/-- What became of a request: the answer to the user, and the new schema if one was accepted. -/
structure Outcome where
  reply : Message
  intent? : Option Intent
  schema? : Option Schema
  errors : List String

def Outcome.accepted (o : Outcome) : Bool := o.schema?.isSome

/-- A talk about a schema. While it waits for the collaborator it takes no other request. -/
structure Dialogue where
  timeline : Timeline
  waiting : Bool
  messages : List Message
  lastError? : Option String
  written : Nat

def welcome : String :=
  "Your schema is ready. Ask me for changes, for example 'Add a status column to deals'."

namespace Dialogue

/-- The next message. -/
def message (d : Dialogue) (now : Instant) (speaker : Speaker) (content : String)
    (metadata : Members) : Message :=
  ⟨d.written + 1, speaker, content, now, metadata⟩

/-- Adds the next message. -/
def say (d : Dialogue) (now : Instant) (speaker : Speaker) (content : String)
    (metadata : Members) : Dialogue :=
  { d with
    messages := d.messages ++ [d.message now speaker content metadata]
    written := d.written + 1 }

/-- Starts over with a schema, after a number of messages written earlier. -/
def start (written : Nat) (now : Instant) (schema : Schema) : Dialogue :=
  say ⟨.start schema, false, [], none, written⟩ now .assistant welcome []

def accept (d : Dialogue) (schema : Schema) : Dialogue :=
  { d with timeline := d.timeline.accept schema }

def undo (d : Dialogue) (now : Instant) : Dialogue × Bool :=
  match d.timeline.undo? with
  | some timeline => (say { d with timeline } now .system "Undid last change" [], true)
  | none => (d, false)

def redo (d : Dialogue) (now : Instant) : Dialogue × Bool :=
  match d.timeline.redo? with
  | some timeline => (say { d with timeline } now .system "Redid change" [], true)
  | none => (d, false)

/-- The last messages, at most as many as the window is wide. -/
def lastMessages (d : Dialogue) (window : Int) : List Message :=
  d.messages.drop (d.messages.length - window.toNat)

/-- Takes a request of the user and puts it to the collaborator. -/
def ask (d : Dialogue) (window : Int) (now : Instant) (text : String) : Dialogue × Request :=
  let asked := { d.say now .user text [] with waiting := true, lastError? := none }
  (asked, ⟨text, asked.timeline.current, asked.lastMessages window⟩)

/-- Answers the user; the wait is over. -/
def answer (d : Dialogue) (now : Instant) (intent? : Option Intent) (schema? : Option Schema)
    (errors : List String) (content : String) (metadata : Members) : Dialogue × Outcome :=
  ({ d.say now .assistant content metadata with waiting := false },
    ⟨d.message now .assistant content metadata, intent?, schema?, errors⟩)

/-- Tells the user why nothing was changed. -/
def reject (d : Dialogue) (now : Instant) (intent? : Option Intent) (error : String)
    (errors : List String) : Dialogue × Outcome :=
  answer { d with lastError? := some error } now intent? none errors
    s!"I couldn't apply that change: {error}. Please try rephrasing your request."
    [("error", .str error), ("intent", Json.ofOption (fun i => .str (Intent.word i)) intent?)]

/-- Puts a proposed schema to the rules, and accepts it if it passes. -/
def propose (d : Dialogue) (limits : Limits) (now : Instant) (reply : Reply) (candidate : Members) :
    Dialogue × Outcome :=
  let checked := validate (.raw (.obj candidate)) limits
  match checked.accepted? with
  | none =>
    let rules := ", ".intercalate (checked.rulesFailed.map Rule.word)
    d.reject now (some reply.intent) s!"the proposed schema failed validation ({rules})"
      (checked.violations.map fun v => v.rule.word ++ ": " ++ v.message)
  | some schema =>
    (d.accept schema).answer now (some reply.intent) (some schema) []
      (if reply.message = "" then "Schema updated." else reply.message)
      [("intent", .str reply.intent.word), ("reasoning", .str reply.reasoning),
        ("changes", .arr (reply.changes.map .obj))]

/-- Works out what to make of a response. Changes are applied to the schema that is current now;
when that one, taken in during the wait, cannot be written out, the wait is over without an
outcome. -/
def conclude (d : Dialogue) (terms : Terms) (now : Instant) (response : Response) :
    Dialogue × Option Outcome :=
  let found : Dialogue × Outcome → Dialogue × Option Outcome := Prod.map id some
  match response.settle terms.timeout with
  | .error error => found (d.reject now none error [error])
  | .ok reply =>
    if reply.intent = .clarify ∨ !reply.proposes then
      found (d.answer now (some reply.intent) none []
        (if reply.message = "" then reply.reasoning else reply.message)
        [("intent", .str reply.intent.word)])
    else match reply.candidate? d.timeline.current with
      | none => ({ d with waiting := false }, none)
      | some (.error error) =>
        found (d.reject now (some reply.intent) error.message [error.message])
      | some (.ok candidate) => found (d.propose terms.limits now reply candidate)

end Dialogue

end Schemata
