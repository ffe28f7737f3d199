import Larder.Api.Records
import Larder.Api.Request
import Larder.Resource
import Larder.Text.Blank

/-!
# Teams

Teams are cached under their ids. A team the client created carries the time of its creation until
the marks are cleaned; marked teams are shown first. Fields that an answer did not carry keep the
value they had.
-/

namespace Larder

/-- A cached team. -/
structure Team where
  /-- What tells teams apart. -/
  teamId : String
  /-- The name shown to people. -/
  teamName : Option String := none
  /-- What the team is for. -/
  description : Option String := none
  /-- The ids of the permissions granted to the team. -/
  permissions : List String := []
  /-- Further parameters, if they were ever loaded. -/
  metaParameters : Option (List (String × Json)) := none
  /-- When this client created the team, until the mark is cleaned. -/
  createdAt : Option Instant := none

/-- The fields sent to create or change a team. -/
structure TeamInput where
  /-- The team. -/
  teamId : String
  /-- Its name. -/
  teamName : Option String := none
  /-- What it is for. -/
  description : Option String := none
  /-- The permissions it is to have. -/
  permissions : List String := []

namespace Team

/-- Whether this client created the team. -/
def isNew (t : Team) : Bool := t.createdAt.isSome

/-- A team as the service describes it, without a mark. -/
def ofRecord (r : Api.TeamRecord) : Team where
  teamId := r.teamId
  teamName := r.teamName
  description := r.description
  permissions := r.teamPermissions
  metaParameters := r.metaParameters

/-- The fields of a team in their order. -/
def members (t : Team) : List (String × Json) := [
  ("team_id", .str t.teamId),
  ("team_name", .ofString? t.teamName),
  ("description", .ofString? t.description),
  ("team_permissions", .strings t.permissions),
  ("meta_parameters", .ofOption (t.metaParameters.map .obj)),
  ("created_at", .ofString? (t.createdAt.map Instant.text))]

/-- A team as it is shown. -/
def encode (t : Team) : Json := .obj t.members

/-- The order in which teams are shown: new ones first, the newest foremost, then the others by
their ids. -/
def compare (a b : Team) : Ordering :=
  match a.createdAt, b.createdAt with
  | some x, some y => Instant.compare y x
  | none, some _ => .gt
  | some _, none => .lt
  | none, none => Ord.compare a.teamId b.teamId

/-- Teams in the order in which they are shown; equal ones stay in their order. -/
def sort (teams : List Team) : List Team :=
  teams.mergeSort fun a b => (compare a b).isLE

/-- A team over the one that is cached: parameters and mark stay unless the new team has its own. -/
def merge (previous : Option Team) (next : Team) : Team :=
  match previous with
  | none => next
  | some p =>
    { next with
      metaParameters := next.metaParameters.or p.metaParameters
      createdAt := next.createdAt.or p.createdAt }

end Team

namespace Teams

/-- The group of fields that carries the further parameters of a team. -/
def includeMetaParameters : String := "includeMetaParameters"

/-- The groups of fields the service knows. -/
def knownIncludes : List String := [includeMetaParameters]

/-- The name of the alias for the teams with a permission. -/
def withPermissionName : String := "teams-with-permission"

/-- The key of every cached team that holds a permission. -/
def withPermission (permission : String) : Key String :=
  .byAlias ⟨withPermissionName, some permission⟩

/-- The cached teams with the permission an alias asks for; none without a permission. -/
def permissionResolver : Resolver String Team := fun a teams =>
  match a.param with
  | none => []
  | some p => (teams.values.filter fun t => t.permissions.contains p).map Team.teamId

/-- Teams are merged, and a blank id is no key. -/
def policy : Policy String Team where
  merge previous next := some (Team.merge previous next)
  accepts id := !Text.isAllBlank id

/-- A resource of teams that holds nothing yet. -/
def empty : Resource String Team where
  name := "teams"
  policy := policy
  cache := Cache.register {} withPermissionName permissionResolver

/-- The variables of a request, for each known group whether it is asked for, and some more. -/
def inputs (inc : Includes) (more : List (String × Json)) : Json :=
  .ofMembers (((inc.toVariables knownIncludes).map fun v => (v.1, .bool v.2)) ++ more)

/-- The request for one team, or for all of them. -/
def listRequest (inc : Includes) (id : Option String) : Api.Request where
  operation := "getTeamsList"
  document := Api.Documents.withTeamFields Api.Documents.getTeamsList
  inputs := inputs inc [("teamId", .ofString? id)]

/-- The requests of a load: one per concrete key, or one for an alias. -/
def requests (key : Key String) (inc : Includes) : List Api.Request :=
  match key with
  | .byAlias _ => [listRequest inc none]
  | _ => key.explicit.map fun id => listRequest inc (some id)

/-- The entries an answer to such a request holds. -/
def entries (answer : Except Api.ServiceError Json) :
    Except Api.ServiceError (List (String × Team)) :=
  (Api.decoded "getTeamsList" Api.teamsAnswer answer).map fun records =>
    records.map fun r => (r.teamId, Team.ofRecord r)

end Teams

end Larder
