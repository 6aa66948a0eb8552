import Schemata.Problem
import Schemata.Schema.Diff
import Schemata.Schema.Payload
import Schemata.Rules.Validation
import Schemata.Time.Instant

/-! Stored versions of schemas. A scope, which is a user in a project or without one, has its own
row of revisions; the newest one is active. -/

namespace Schemata

/-- A user in a project, or without one. -/
structure Scope where
  project? : Option String
  user : String
  deriving DecidableEq, Repr

/-- A stored schema. It is never changed; only whether it is active may change. -/
structure Version where
  id : String
  scope : Scope
  revision : Nat
  snapshot : Schema
  description : String
  created : Instant
  active : Bool
  deriving DecidableEq

def Version.toJson (v : Version) : Json :=
  .obj [("id", .str v.id), ("project_id", Json.ofOption .str v.scope.project?),
    ("user_id", .str v.scope.user), ("revision", .int v.revision),
    ("version", .str v.snapshot.version), ("snapshot", v.snapshot.payload),
    ("change_description", .str v.description), ("created_at", .str v.created.text),
    ("is_active", .bool v.active)]

/-- A version as it is read from the store, where its schema is kept as a payload. -/
def Version.settled (v : Version) : Version := { v with snapshot := v.snapshot.settled }

@[simp] theorem Version.settled_id (v : Version) : v.settled.id = v.id := rfl

@[simp] theorem Version.settled_scope (v : Version) : v.settled.scope = v.scope := rfl

@[simp] theorem Version.settled_active (v : Version) : v.settled.active = v.active := rfl

@[simp] theorem Version.settled_snapshot (v : Version) :
    v.settled.snapshot = v.snapshot.settled := rfl

/-- All versions, the oldest first, and how many identifiers were given out. -/
structure VersionStore where
  rows : List Version
  issued : Nat
  deriving DecidableEq

/-- The first rows up to a limit; a negative limit is none. -/
def upTo {α : Type} (limit : Int) (rows : List α) : List α :=
  if limit < 0 then rows else rows.take limit.toNat

namespace VersionStore

def empty : VersionStore := ⟨[], 0⟩

/-- The versions of a scope, the oldest first. -/
def ofScope (store : VersionStore) (scope : Scope) : List Version :=
  store.rows.filter fun row => row.scope == scope

def version? (store : VersionStore) (id : String) : Option Version :=
  store.rows.find? fun row => row.id == id

/-- The version of an identifier, which has to be there. -/
def version (store : VersionStore) (id : String) : Except Failure Version :=
  match store.version? id with
  | some version => .ok version
  | none => .error (.versionNotFound id)

def active? (store : VersionStore) (scope : Scope) : Option Version :=
  (store.ofScope scope).find? (·.active)

/-- The versions of a scope, the newest first. -/
def newest (store : VersionStore) (scope : Scope) (limit : Int) : List Version :=
  upTo limit (store.ofScope scope).reverse

def countOfUser (store : VersionStore) (user : String) : Nat :=
  (store.rows.filter fun row => row.scope.user == user).length

def countActive (store : VersionStore) (scope : Scope) : Nat :=
  ((store.ofScope scope).filter (·.active)).length

def nextRevision (store : VersionStore) (scope : Scope) : Nat :=
  ((store.ofScope scope).map (·.revision)).foldl max 0 + 1

/-- Scopes whose active versions may not stand side by side: a missing project and a project without
a name count as one. -/
def Clashes (a b : Scope) : Prop := a.user = b.user ∧ a.project?.getD "" = b.project?.getD ""

instance (a b : Scope) : Decidable (Clashes a b) := inferInstanceAs (Decidable (_ ∧ _))

/-- Whether another scope has an active version in the way. -/
def isBlocked (store : VersionStore) (scope : Scope) : Bool :=
  store.rows.any fun row => row.active && row.scope != scope && decide (Clashes row.scope scope)

/-- The rows with no active version in a scope. -/
def retire (scope : Scope) (rows : List Version) : List Version :=
  rows.map fun row => if row.scope = scope then { row with active := false } else row

/-- Why another scope is in the way of a version. -/
def blockage (scope : Scope) : Failure :=
  .concurrency "Another schema version was activated concurrently for this scope"
    scope.project? none
    .null

/-- Stores a schema as the active version of its scope, and gives back the version with the schema
that was handed in. An identifier is used up even when the schema cannot be written out or another
scope is in the way. -/
def insert (store : VersionStore) (now : Instant) (scope : Scope) (schema : Schema)
    (description : String) : VersionStore × Except Problem Version :=
  let issued := store.issued + 1
  if !schema.isWritable then (⟨store.rows, issued⟩, .error .tooDeep)
  else if store.isBlocked scope then (⟨store.rows, issued⟩, .error (.failure (blockage scope)))
  else
    let version : Version :=
      { id := s!"v{issued}", scope, revision := store.nextRevision scope, snapshot := schema,
        description, created := now, active := true }
    (⟨retire scope store.rows ++ [version.settled], issued⟩, .ok version)

/-- Checks a candidate and stores it. -/
def create (limits : Limits) (now : Instant) (store : VersionStore) (candidate : Candidate)
    (scope : Scope) (description : String) : VersionStore × Except Problem Version :=
  let checked := validate candidate limits
  match checked.accepted? with
  | none => (store, .error (.failure (.validation (checked.violations.map Violation.report) none)))
  | some schema => store.insert now scope schema description

/-- The changes from one version to another. -/
def compare (store : VersionStore) (first second : String) : Except Failure SchemaDiff := do
  let old ← store.version first
  let new ← store.version second
  return .between old.snapshot new.snapshot

/-- Removes the versions of a project, of every user, and counts them. -/
def deleteProject (store : VersionStore) (project? : Option String) : VersionStore × Nat :=
  let kept := store.rows.filter fun row => row.scope.project? != project?
  (⟨kept, store.issued⟩, store.rows.length - kept.length)

end VersionStore

end Schemata
