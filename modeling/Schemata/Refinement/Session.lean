import Schemata.Refinement.Dialogue

/-! Sessions: a talk about a schema, once a schema was loaded, and the commands that drive it. Other
commands may come in while a request waits for the collaborator. -/

namespace Schemata

/-- A session has no talk before its first schema. -/
abbrev Session := Option Dialogue

/-- Why a command is refused. -/
inductive SessionError where
  | notLoaded
  | busy
  deriving DecidableEq, Repr

def SessionError.message : SessionError → String
  | .notLoaded => "No schema loaded; call initialize() first"
  | .busy => "A message is already being processed in this session"

namespace Session

def stateWord (session : Session) : String :=
  match session with
  | none => "idle"
  | some d => if d.waiting then "processing" else "ready"

/-- All schemas of the session, the undone ones included. -/
def history (session : Session) : List Schema := session.elim [] (·.timeline.schemas)

/-- The place of the current schema, -1 when there is none. -/
def index (session : Session) : Int := session.elim (-1) (·.timeline.index)

def current? (session : Session) : Option Schema := session.map (·.timeline.current)

def messages (session : Session) : List Message := session.elim [] (·.messages)

def lastError? (session : Session) : Option String := session.bind (·.lastError?)

def canUndo (session : Session) : Bool := session.any (·.timeline.canUndo)

def canRedo (session : Session) : Bool := session.any (·.timeline.canRedo)

/-- The session at a glance, unless its schema cannot be written out. -/
def snapshot? (session : Session) : Option Json := do
  let schema? ← session.current?.mapM Schema.payload?
  return .obj [("state", .str session.stateWord), ("current_schema", Json.ofOption id schema?),
    ("history_length", .int session.history.length), ("history_index", .int session.index),
    ("messages", .arr (session.messages.map Message.toJson)),
    ("last_error", Json.ofOption .str session.lastError?)]

end Session

/-- A command. Schemas come in as data. A request comes with what happens while it waits and with
what comes of it. -/
inductive Command where
  | load (schema : Json)
  | accept (schema : Json)
  | undo
  | redo
  | snapshot
  | history
  | submit (text : String) (meanwhile : List Command) (response : Response)

instance : Inhabited Command := ⟨.snapshot⟩

/-- What a command gives back. A schema that cannot be written out is no report and takes no
changes. -/
inductive Effect where
  | done
  | moved (success : Bool)
  | report (value : Json)
  | outcome (outcome : Outcome)
  | refused (error : SessionError)
  | misshapen (errors : List ShapeError)
  | tooDeep

/-- The effect of a command that shows schemas. -/
def Effect.ofReport? (report? : Option Json) : Effect := report?.elim tooDeep report

/-- The effect of a request. -/
def Effect.ofOutcome? (outcome? : Option Outcome) : Effect := outcome?.elim tooDeep outcome

/-- A command seen from outside: what it gave back, the session after it, the last request that the
collaborator saw, and what happened while it waited. -/
inductive Observation where
  | mk (effect : Effect) (after : Session) (request? : Option Request)
    (meanwhile : List Observation)

namespace Observation

def effect : Observation → Effect
  | mk effect _ _ _ => effect

def after : Observation → Session
  | mk _ after _ _ => after

def request? : Observation → Option Request
  | mk _ _ request? _ => request?

def meanwhile : Observation → List Observation
  | mk _ _ _ meanwhile => meanwhile

mutual

/-- Everything that happened while a command waited, at any depth, in the order in which it
ended. -/
def inner : Observation → List Observation
  | mk _ _ _ meanwhile => flattened meanwhile

/-- Observations with what happened inside each of them in front of it. -/
def flattened : List Observation → List Observation
  | [] => []
  | o :: rest => inner o ++ o :: flattened rest

end

end Observation

def Command.isSubmit : Command → Bool
  | submit .. => true
  | _ => false

/-- The last request seen, when one was seen first and the commands that followed were observed. -/
def lastRequest? (first? : Option Request) (followed : List (Command × Observation)) :
    Option Request :=
  followed.foldl (fun seen? (command, observed) =>
    if command.isSubmit then observed.request? else seen?) first?

/-- Reads a schema that a command brings and goes on with it. -/
def withSchema {α : Type} (value : Json) (unchanged : α) (next : Schema → α × Effect) :
    α × Effect :=
  match Schema.decode value with
  | .valid schema => next schema
  | .invalid errors => (unchanged, .misshapen errors)

namespace Dialogue

/-- The commands without a request. -/
def simple (d : Dialogue) (now : Instant) : Command → Dialogue × Effect
  | .load value => withSchema value d fun schema => (start d.written now schema, .done)
  | .accept value => withSchema value d fun schema => (d.accept schema, .done)
  | .undo =>
    let (next, success) := d.undo now
    (next, .moved success)
  | .redo =>
    let (next, success) := d.redo now
    (next, .moved success)
  | .snapshot => (d, .ofReport? (Session.snapshot? (some d)))
  | .history => (d, .ofReport? (Json.arr <$> d.timeline.schemas.mapM Schema.payload?))
  | .submit .. => (d, .refused .busy)

mutual

/-- Performs a command. Others are performed during a request only if it comes to the
collaborator. -/
def perform (terms : Terms) (now : Instant) : Command → Dialogue → Dialogue × Observation
  | .submit text meanwhile response, d =>
    if d.waiting then (d, .mk (.refused .busy) (some d) none [])
    else
      let (asked, request) := d.ask terms.window now text
      match request.hindrance? terms.timeout with
      | some hindrance =>
        let (next, outcome?) := asked.conclude terms now hindrance
        (next, .mk (.ofOutcome? outcome?) (some next) none [])
      | none =>
        let (later, seen) := performAll terms now meanwhile asked
        let (next, outcome?) := later.conclude terms now response
        (next, .mk (.ofOutcome? outcome?) (some next)
          (lastRequest? (some request) (meanwhile.zip seen)) seen)
  | command, d =>
    let (next, effect) := d.simple now command
    (next, .mk effect (some next) none [])

def performAll (terms : Terms) (now : Instant) :
    List Command → Dialogue → Dialogue × List Observation
  | [], d => (d, [])
  | command :: rest, d =>
    let (next, seen) := perform terms now command d
    let (last, others) := performAll terms now rest next
    (last, seen :: others)

end

end Dialogue

namespace Session

/-- Commands before a schema was loaded. -/
def beforeLoad (now : Instant) : Command → Session × Effect
  | .load value => withSchema value none fun schema => (some (.start 0 now schema), .done)
  | .accept value => withSchema value none fun _ => (none, .refused .notLoaded)
  | .undo | .redo => (none, .moved false)
  | .snapshot => (none, .ofReport? (snapshot? none))
  | .history => (none, .report (.arr []))
  | .submit .. => (none, .refused .notLoaded)

def perform (terms : Terms) (now : Instant) (session : Session) (command : Command) :
    Session × Observation :=
  match session with
  | some d =>
    let (next, seen) := d.perform terms now command
    (some next, seen)
  | none =>
    let (next, effect) := beforeLoad now command
    (next, .mk effect next none [])

/-- Performs commands in order, each at its time. -/
def run (terms : Terms) : Session → List (Instant × Command) → List Observation
  | _, [] => []
  | session, (now, command) :: rest =>
    let (next, seen) := session.perform terms now command
    seen :: run terms next rest

end Session

end Schemata
