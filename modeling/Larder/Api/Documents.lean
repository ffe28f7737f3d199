/-!
# Query documents

The documents sent to the service. Documents that select a team name the fields through a fragment,
which is put behind the document when it is sent.
-/

namespace Larder.Api.Documents

/-- The fields of a team. -/
def teamFields : String := "
fragment AdminTeamInfo on AdminTeamInfo \x7b
  teamId
  teamName
  description
  teamPermissions
  metaParameters @include(if: $includeMetaParameters)
\x7d
"

/-- Teams, all of them or one. -/
def getTeamsList : String := "
query getTeamsList($teamId: ID, $includeMetaParameters: Boolean!) \x7b
  teams: listTeams(teamId: $teamId) \x7b
    ...AdminTeamInfo
  \x7d
\x7d
"

/-- Create a team. -/
def createTeam : String := "
mutation createTeam($teamId: ID!, $teamName: String, $description: String, $includeMetaParameters: Boolean!) \x7b
  team: createTeam(teamId: $teamId, teamName: $teamName, description: $description) \x7b
    ...AdminTeamInfo
  \x7d
\x7d
"

/-- Change a team. -/
def updateTeam : String := "
mutation updateTeam($teamId: ID!, $teamName: String, $description: String, $includeMetaParameters: Boolean!) \x7b
  team: updateTeam(teamId: $teamId, teamName: $teamName, description: $description) \x7b
    ...AdminTeamInfo
  \x7d
\x7d
"

/-- Delete a team. -/
def deleteTeam : String := "
mutation deleteTeam($teamId: ID!, $force: Boolean) \x7b
  deleteTeam(teamId: $teamId, force: $force)
\x7d
"

/-- The users of a team. -/
def getTeamGrantedUsers : String := "
query getTeamGrantedUsers($teamId: ID!) \x7b
  team: listTeams(teamId: $teamId) \x7b
    grantedUsersInfo \x7b
      userId
      teamRole
    \x7d
  \x7d
\x7d
"

/-- The connections granted to a team or a user. -/
def getSubjectConnectionAccess : String := "
query getSubjectConnectionAccess($subjectId: ID) \x7b
  grantInfo: getSubjectConnectionAccess(subjectId: $subjectId) \x7b
    connectionId
    subjectId
    subjectType
  \x7d
\x7d
"

/-- Set the permissions of a team or a user. -/
def setSubjectPermissions : String := "
mutation setSubjectPermissions($subjectId: ID!, $permissions: [ID!]!) \x7b
  permissions: setSubjectPermissions(subjectId: $subjectId, permissions: $permissions) \x7b
    id
  \x7d
\x7d
"

/-- The state of the session. -/
def getSessionState : String := "
query getSessionState \x7b
  sessionState \x7b
    createTime
    lastAccessTime
    locale
    cacheExpired
    valid
    remainingTime
  \x7d
\x7d
"

/-- The settings of the product. -/
def getProductSettings : String := "
query getProductSettings \x7b
  settings: productSettings \x7b
    groups \x7b
      id
      displayName
    \x7d
    settings \x7b
      key
      displayName
      groupId
      value
    \x7d
  \x7d
\x7d
"

/-- A document with the fields of a team behind it. -/
def withTeamFields (document : String) : String := document ++ teamFields

/-- The documents by the names under which they are listed. -/
def catalogue : List (String × String) := [
  ("TEAM_FIELDS", teamFields),
  ("GET_TEAMS_LIST", getTeamsList),
  ("CREATE_TEAM", createTeam),
  ("UPDATE_TEAM", updateTeam),
  ("DELETE_TEAM", deleteTeam),
  ("GET_TEAM_GRANTED_USERS", getTeamGrantedUsers),
  ("GET_SUBJECT_CONNECTION_ACCESS", getSubjectConnectionAccess),
  ("SET_SUBJECT_PERMISSIONS", setSubjectPermissions),
  ("GET_SESSION_STATE", getSessionState),
  ("GET_PRODUCT_SETTINGS", getProductSettings)]

/-- The document listed under a name; any other text stands for itself. -/
def named (name : String) : String :=
  ((catalogue.find? fun d => d.1 = name).map Prod.snd).getD name

end Larder.Api.Documents
