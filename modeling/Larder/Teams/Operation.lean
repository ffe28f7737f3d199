import Larder.Teams.Basic

/-!
# Operations on teams

Creating, changing and deleting teams, setting their permissions, and asking for their users and
connections take one or more exchanges with the service. An operation is a little machine: it sends
a request and rests at a *stage*; the answer takes it, in one step that may change the cached teams,
to the next request or to its end.

Permissions are sent only when they differ from the cached ones. When they were set for a team that
is not cached, the team is loaded, and the operation goes on when that load has ended.
-/

namespace Larder.Teams

/-- An operation somebody calls for. -/
inductive Call where
  /-- Create a team. -/
  | create (input : TeamInput)
  /-- Change a team. -/
  | update (input : TeamInput)
  /-- Delete what a key stands for, one team after the other. -/
  | delete (key : Key String) (force : Bool)
  /-- The users of a team. -/
  | grantedUsers (team : String)
  /-- The connections granted to a team. -/
  | connectionAccess (team : String)
  /-- Replace the permissions of a team. -/
  | setPermissions (team : String) (permissions : List String)

/-- What an operation yields. -/
inductive Yield where
  /-- The team as it is cached now. -/
  | team (t : Team)
  /-- The ids of the deleted teams. -/
  | ids (ids : List String)
  /-- The users of a team. -/
  | users (users : List Api.GrantedUser)
  /-- The granted connections. -/
  | grants (grants : List Api.ConnectionGrant)
  /-- Nothing but its success. -/
  | done

/-- Why an operation failed. -/
inductive Trouble where
  /-- A load failed. -/
  | failure (f : Failure)
  /-- An exchange failed. -/
  | service (e : Api.ServiceError)
  /-- Something else is wrong. -/
  | report (text : String)

/-- The wording of a trouble. -/
def Trouble.message : Trouble → String
  | .failure f => f.message
  | .service e => e.message
  | .report text => text

/-- What an operation does once the permissions are as wanted. -/
inductive Sequel where
  /-- Yield the team that was created. -/
  | created (team : String)
  /-- Mark the team that was changed as outdated and yield it. -/
  | updated (team : String)
  /-- Nothing. -/
  | nothing

/-- Where an operation rests until its request is answered. -/
inductive Stage where
  /-- The request to create a team is sent. -/
  | creating (input : TeamInput)
  /-- The request to change a team is sent. -/
  | updating (input : TeamInput)
  /-- The request to delete a team is sent; some teams are left, some are deleted. -/
  | deleting (team : String) (left deleted : List String) (force : Bool)
  /-- The request for the users of a team is sent. -/
  | listingUsers (team : String)
  /-- The request for granted connections is sent. -/
  | listingAccess
  /-- The request to set permissions is sent. -/
  | granting (team : String) (sequel : Sequel)

/-- What an operation does next. -/
inductive Next where
  /-- Send a request and rest. -/
  | send (request : Api.Request) (stage : Stage)
  /-- Wait for a load, then go on. -/
  | await (started : Started String) (sequel : Sequel)
  /-- End. -/
  | finished (result : Except Trouble Yield)

/-- The includes a request that changes a team should ask for, so that its answer matches what is
cached. -/
def includesFor (r : Resource String Team) (team : String) : Includes :=
  match r.cache.ledger.meta? (.key team) with
  | some m => m.includes
  | none => .none

/-- The request that creates or changes a team. -/
def changeRequest (r : Resource String Team) (operation document : String) (input : TeamInput) :
    Api.Request where
  operation := operation
  document := Api.Documents.withTeamFields document
  inputs := inputs (includesFor r input.teamId) [
    ("teamId", .str input.teamId),
    ("teamName", .ofString? input.teamName),
    ("description", .ofString? input.description)]

/-- Whether two lists hold the same permissions, repetitions counted. -/
def samePermissions (a b : List String) : Bool :=
  let sort (l : List String) := l.mergeSort fun x y => (compare x y).isLE
  sort a == sort b

/-- End an operation after its permissions are as wanted. -/
def conclude (r : Resource String Team) (sequel : Sequel) : Resource String Team × Next :=
  match sequel with
  | .nothing => (r, .finished (.ok .done))
  | .created id =>
    (r, .finished <| match r.cache.data.get? id with
      | some t => .ok (.team t)
      | none => .error (.report ("team " ++ id ++ " disappeared after creation")))
  | .updated id =>
    let r := r.markOutdated (.single id)
    (r, .finished <| match r.cache.data.get? id with
      | some t => .ok (.team t)
      | none => .error (.report ("team " ++ id ++ " disappeared after update")))

/-- See to it that a team has some permissions: nothing is sent if the cached team has them. -/
def grant (r : Resource String Team) (team : String) (permissions : List String)
    (sequel : Sequel) : Resource String Team × Next :=
  let unchanged := match r.cache.data.get? team with
    | some t => samePermissions t.permissions permissions
    | none => false
  if unchanged then conclude r sequel
  else
    (r, .send
      { operation := "setSubjectPermissions"
        document := Api.Documents.setSubjectPermissions
        inputs := .obj [("permissions", .strings permissions), ("subjectId", .str team)] }
      (.granting team sequel))

/-- Delete the next team, or end. -/
def deleteNext (deleted : List String) (force : Bool) : List String → Next
  | [] => .finished (.ok (.ids deleted))
  | id :: left => .send
      { operation := "deleteTeam"
        document := Api.Documents.deleteTeam
        inputs := .obj [("force", .bool force), ("teamId", .str id)] }
      (.deleting id left deleted force)

/-- The first step of an operation. -/
def begin (r : Resource String Team) : Call → Resource String Team × Next
  | .create input =>
    (r, .send (changeRequest r "createTeam" Api.Documents.createTeam input) (.creating input))
  | .update input =>
    (r, .send (changeRequest r "updateTeam" Api.Documents.updateTeam input) (.updating input))
  | .delete key force => (r, deleteNext [] force (r.cache.resolve key))
  | .grantedUsers id =>
    (r, .send
      { operation := "getTeamGrantedUsers"
        document := Api.Documents.getTeamGrantedUsers
        inputs := .obj [("teamId", .str id)] }
      (.listingUsers id))
  | .connectionAccess id =>
    (r, .send
      { operation := "getSubjectConnectionAccess"
        document := Api.Documents.getSubjectConnectionAccess
        inputs := .obj [("subjectId", .str id)] }
      .listingAccess)
  | .setPermissions id permissions => grant r id permissions .nothing

/-- An operation that ends in an error of the service. -/
def failed (r : Resource String Team) (e : Api.ServiceError) : Resource String Team × Next :=
  (r, .finished (.error (.service e)))

/-- The step an operation takes at a stage when its request is answered. -/
def answer (r : Resource String Team) (now : Instant) (stage : Stage)
    (reply : Except Api.ServiceError Json) : Resource String Team × Next :=
  match stage with
  | .creating input =>
    match Api.decoded "createTeam" Api.teamAnswer reply with
    | .error e => failed r e
    | .ok record =>
      let team := { Team.ofRecord record with createdAt := some now }
      let r := (r.setMany now [(team.teamId, team)]).1
      grant r team.teamId input.permissions (.created team.teamId)
  | .updating input =>
    match Api.decoded "updateTeam" Api.teamAnswer reply with
    | .error e => failed r e
    | .ok record =>
      let team := Team.ofRecord record
      let r := (r.setMany now [(team.teamId, team)]).1
      grant r team.teamId input.permissions (.updated team.teamId)
  | .deleting id left deleted force =>
    match reply with
    | .error e => failed r e
    | .ok _ =>
      let r := (r.delete (.single id)).1
      (r, deleteNext (deleted ++ [id]) force left)
  | .listingUsers id =>
    match Api.decoded "getTeamGrantedUsers" Api.grantedUsersAnswer reply with
    | .error e => failed r e
    | .ok [] => (r, .finished (.error (.report ("Team not found: " ++ id))))
    | .ok (users :: _) => (r, .finished (.ok (.users users)))
  | .listingAccess =>
    match Api.decoded "getSubjectConnectionAccess" Api.accessAnswer reply with
    | .error e => failed r e
    | .ok grants => (r, .finished (.ok (.grants grants)))
  | .granting id sequel =>
    match Api.decoded "setSubjectPermissions" Api.permissionsAnswer reply with
    | .error e => failed r e
    | .ok granted =>
      match r.update id fun t => { t with permissions := granted } with
      | (r, true) => conclude r sequel
      | (r, false) =>
        let (r, started) := r.start (.single id) .none true
        (r, .await started sequel)

/-- The step an operation takes when the load it waited for has ended. -/
def reloaded (r : Resource String Team) (sequel : Sequel) (result : LoadResult) :
    Resource String Team × Next :=
  match result with
  | .error f => (r, .finished (.error (.failure f)))
  | .ok () => conclude r sequel

/-- Drop the mark of every cached team. -/
def cleanNewFlags (r : Resource String Team) : Resource String Team :=
  r.cache.data.keys.foldl (fun r id => (r.update id fun t => { t with createdAt := none }).1) r

/-- The cached teams in the order in which they are shown. -/
def sorted (r : Resource String Team) : List Team := Team.sort r.cache.data.values

end Larder.Teams
