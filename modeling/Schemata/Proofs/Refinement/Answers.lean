import Schemata.Proofs.Rules.Sound
import Schemata.Refinement.Dialogue

/-! How a request ends. Whatever the collaborator does, there is one answer, the wait is over, and
the line of schemas goes on by a schema that passes the rules or stays as it is. Only a schema that
comes in during the wait and cannot be written out leaves a request without an answer. -/

namespace Schemata

namespace Dialogue

variable {d : Dialogue}

/-- The end of a request that has an answer. -/
structure Answered (limits : Limits) (d next : Dialogue) (o : Outcome) : Prop where
  waiting : next.waiting = false
  messages : next.messages = d.messages ++ [o.reply]
  speaker : o.reply.speaker = .assistant
  timeline : next.timeline = o.schema?.elim d.timeline d.timeline.accept
  passed : ∀ schema, o.schema? = some schema → schema.passes limits = true

theorem reject_answered (limits : Limits) (d : Dialogue) (now : Instant) (intent? : Option Intent)
    (error : String) (errors : List String) :
    Answered limits d (d.reject now intent? error errors).1
      (d.reject now intent? error errors).2 where
  waiting := rfl
  messages := rfl
  speaker := rfl
  timeline := rfl
  passed _ none := by cases none

theorem answer_answered (limits : Limits) (d : Dialogue) (now : Instant) (intent? : Option Intent)
    (errors : List String) (content : String) (metadata : Members) :
    Answered limits d (d.answer now intent? none errors content metadata).1
      (d.answer now intent? none errors content metadata).2 where
  waiting := rfl
  messages := rfl
  speaker := rfl
  timeline := rfl
  passed _ none := by cases none

private theorem propose_answered (d : Dialogue) (limits : Limits) (now : Instant) (reply : Reply)
    (candidate : Members) : Answered limits d (d.propose limits now reply candidate).1
      (d.propose limits now reply candidate).2 := by
  unfold propose
  simp only
  split
  · exact reject_answered ..
  · rename_i schema accepted
    refine ⟨rfl, rfl, rfl, rfl, fun other same => ?_⟩
    obtain rfl : schema = other := Option.some.inj same
    exact passes_of_accepted accepted

/-- A reply asks for changes to a schema that cannot be written out. -/
structure Stuck (d : Dialogue) (terms : Terms) (response : Response) : Prop where
  asked : ∃ reply, response.settle terms.timeout = .ok reply ∧ reply.intent ≠ .clarify ∧
    reply.proposes = true ∧ reply.schema? = none
  unwritable : d.timeline.current.isWritable = false

theorem candidate?_eq_none_iff (reply : Reply) (current : Schema) :
    reply.candidate? current = none ↔ reply.schema? = none ∧ current.isWritable = false := by
  unfold Reply.candidate?
  cases reply.schema? with
  | some members => simp
  | none => cases current.isWritable <;> simp

/-- A request has an answer, except that it is stuck. -/
theorem conclude_cases (d : Dialogue) (terms : Terms) (now : Instant) (response : Response) :
    (∃ next o, d.conclude terms now response = (next, some o) ∧ Answered terms.limits d next o) ∨
    (d.Stuck terms response ∧
      d.conclude terms now response = ({ d with waiting := false }, none)) := by
  unfold conclude
  simp only
  split
  · exact .inl ⟨_, _, rfl, reject_answered ..⟩
  · rename_i reply settled
    split
    · exact .inl ⟨_, _, rfl, answer_answered ..⟩
    · rename_i proposes
      simp only [not_or, Bool.not_eq_true, Bool.not_eq_false'] at proposes
      split
      · rename_i nothing
        obtain ⟨changes, unwritable⟩ := (candidate?_eq_none_iff ..).mp nothing
        have asked : reply.proposes = true := by simpa using proposes.2
        exact .inr ⟨⟨⟨reply, settled, proposes.1, asked, changes⟩, unwritable⟩, rfl⟩
      · exact .inl ⟨_, _, rfl, reject_answered ..⟩
      · exact .inl ⟨_, _, rfl, propose_answered ..⟩

/-- A request that is kept from the collaborator comes to an error; any other one can be written
out. -/
theorem hindrance?_cases (r : Request) (timeout : Binary64) :
    (∃ hindrance error, r.hindrance? timeout = some hindrance ∧
      hindrance.settle timeout = .error error) ∨
    (r.hindrance? timeout = none ∧ r.schema.isWritable = true) := by
  unfold Request.hindrance?
  split
  · exact .inl ⟨_, _, rfl, rfl⟩
  · split
    · exact .inl ⟨_, _, rfl, rfl⟩
    · rename_i sent
      cases writable : r.schema.isWritable with
      | true => exact .inr ⟨rfl, rfl⟩
      | false => simp [Request.payload?, Schema.payload?, writable] at sent

end Dialogue

end Schemata
