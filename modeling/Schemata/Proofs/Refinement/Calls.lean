import Schemata.Proofs.Refinement.Answers
import Schemata.Proofs.Refinement.Zipper
import Schemata.Refinement.Session

/-! Calls to a session, one after the other: in front of each of them the session shows a zipper of
schemas, and each of them does to the zipper what it says. -/

namespace Schemata

/-- A call that ends before the next one is made. -/
inductive Call where
  | load (schema : Json)
  | accept (schema : Json)
  | undo
  | redo
  | submit (text : String) (response : Response)

def Call.command : Call → Command
  | .load schema => .load schema
  | .accept schema => .accept schema
  | .undo => .undo
  | .redo => .redo
  | .submit text response => .submit text [] response

namespace Session

/-- The session after calls, each at its time. -/
def afterCalls (terms : Terms) (session : Session) (calls : List (Instant × Call)) : Session :=
  calls.foldl (fun session call => (session.perform terms call.1 call.2.command).1) session

/-- The zipper of a session, once a schema was loaded. -/
def zipper? (session : Session) : Option SchemaZipper := session.map (·.timeline.zipper)

/-- No request is waiting. -/
def Settled (session : Session) : Prop := ∀ d, session = some d → d.waiting = false

variable {session : Session}

end Session

end Schemata
