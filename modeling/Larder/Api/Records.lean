import Larder.Api.Decode

/-!
# Records of the service

The records the service answers with, each with its decoder and, where the record is kept or shown,
its encoder. An encoder writes every field, under the names the service uses, in the order of the
record.
-/

namespace Larder.Api

/-! ## Teams -/

/-- A team as the service describes it. -/
structure TeamRecord where
  /-- What tells teams apart. -/
  teamId : String
  /-- The name shown to people. -/
  teamName : Option String
  /-- What the team is for. -/
  description : Option String
  /-- The ids of the permissions granted to the team. -/
  teamPermissions : List String
  /-- Further parameters, there only when they were asked for. -/
  metaParameters : Option (List (String × Json))

namespace TeamRecord

/-- The fields of a team. -/
def fields : List Field := [
  field "teamId" .required string,
  field "teamName" .optional (nullable string),
  field "description" .optional (nullable string),
  field "teamPermissions" .defaulted (list string),
  field "metaParameters" .optional (nullable object)]

/-- A team. -/
def decode : Decoder TeamRecord := fun j => do
  let ms ← members "ApiTeam" fields j
  return {
    teamId := ← required ms "teamId" string
    teamName := ← optional ms "teamName" string
    description := ← optional ms "description" string
    teamPermissions := ← defaulted ms "teamPermissions" (list string) []
    metaParameters := ← optional ms "metaParameters" object }

/-- The team with all its fields. -/
def encode (t : TeamRecord) : Json := .obj [
  ("teamId", .str t.teamId),
  ("teamName", .ofString? t.teamName),
  ("description", .ofString? t.description),
  ("teamPermissions", .strings t.teamPermissions),
  ("metaParameters", .ofOption (t.metaParameters.map .obj))]

end TeamRecord

/-- The answer to a request for teams. -/
def teamsAnswer : Decoder (List TeamRecord) := fun j => do
  let ms ← members "TeamsListResponse" [field "teams" .required (list TeamRecord.decode)] j
  required ms "teams" (list TeamRecord.decode)

/-- The answer to a request that creates or updates a team. -/
def teamAnswer : Decoder TeamRecord := fun j => do
  let ms ← members "TeamResponse" [field "team" .required TeamRecord.decode] j
  required ms "team" TeamRecord.decode

/-- A user of a team. -/
structure GrantedUser where
  /-- The user. -/
  userId : String
  /-- The user's role in the team. -/
  teamRole : Option String

/-- A user of a team. -/
def GrantedUser.decode : Decoder GrantedUser := fun j => do
  let ms ← members "ApiGrantedUser"
    [field "userId" .required string, field "teamRole" .optional (nullable string)] j
  return { userId := ← required ms "userId" string, teamRole := ← optional ms "teamRole" string }

/-- The users of a team, as a record of their own. -/
def teamGrants : Decoder (List GrantedUser) := fun j => do
  let ms ← members "ApiTeamGrants" [field "grantedUsersInfo" .defaulted (list GrantedUser.decode)] j
  defaulted ms "grantedUsersInfo" (list GrantedUser.decode) []

/-- The answer to a request for the users of teams. -/
def grantedUsersAnswer : Decoder (List (List GrantedUser)) := fun j => do
  let ms ← members "TeamGrantedUsersResponse" [field "team" .required (list teamGrants)] j
  required ms "team" (list teamGrants)

/-- A connection granted to a team or a user. -/
structure ConnectionGrant where
  /-- The connection. -/
  connectionId : String
  /-- Who may use it. -/
  subjectId : String
  /-- Whether that is a team or a user. -/
  subjectType : String

namespace ConnectionGrant

/-- The fields of a grant. -/
def fields : List Field := [
  field "connectionId" .required string,
  field "subjectId" .required string,
  field "subjectType" .required string]

/-- A grant. -/
def decode : Decoder ConnectionGrant := fun j => do
  let ms ← members "ApiConnectionGrant" fields j
  return {
    connectionId := ← required ms "connectionId" string
    subjectId := ← required ms "subjectId" string
    subjectType := ← required ms "subjectType" string }

/-- The grant with all its fields. -/
def encode (g : ConnectionGrant) : Json := .obj [
  ("connectionId", .str g.connectionId),
  ("subjectId", .str g.subjectId),
  ("subjectType", .str g.subjectType)]

end ConnectionGrant

/-- The answer to a request for granted connections. -/
def accessAnswer : Decoder (List ConnectionGrant) := fun j => do
  let ms ← members "SubjectConnectionAccessResponse"
    [field "grantInfo" .required (list ConnectionGrant.decode)] j
  required ms "grantInfo" (list ConnectionGrant.decode)

/-- A permission, by its id. -/
def permission : Decoder String := fun j => do
  let ms ← members "ApiPermission" [field "id" .required string] j
  required ms "id" string

/-- The answer to a request that sets permissions: the ids granted now. -/
def permissionsAnswer : Decoder (List String) := fun j => do
  let ms ← members "SetPermissionsResponse" [field "permissions" .required (list permission)] j
  required ms "permissions" (list permission)

/-! ## Session and settings -/

/-- The state of the session with the server. -/
structure SessionInfo where
  /-- When the session began. -/
  createTime : String
  /-- When it was last used. -/
  lastAccessTime : String
  /-- The language of the session. -/
  locale : String
  /-- Whether the server dropped what it had cached for it. -/
  cacheExpired : Bool
  /-- Whether the session may be used. -/
  valid : Bool
  /-- How long it lasts. -/
  remainingTime : Option Int

namespace SessionInfo

/-- The fields of a session. -/
def fields : List Field := [
  field "createTime" .required string,
  field "lastAccessTime" .required string,
  field "locale" .required string,
  field "cacheExpired" .defaulted boolean,
  field "valid" .defaulted boolean,
  field "remainingTime" .optional (nullable integer)]

/-- A session. -/
def decode : Decoder SessionInfo := fun j => do
  let ms ← members "ApiSession" fields j
  return {
    createTime := ← required ms "createTime" string
    lastAccessTime := ← required ms "lastAccessTime" string
    locale := ← required ms "locale" string
    cacheExpired := ← defaulted ms "cacheExpired" boolean false
    valid := ← defaulted ms "valid" boolean false
    remainingTime := ← optional ms "remainingTime" integer }

/-- The session with all its fields. -/
def encode (s : SessionInfo) : Json := .obj [
  ("createTime", .str s.createTime),
  ("lastAccessTime", .str s.lastAccessTime),
  ("locale", .str s.locale),
  ("cacheExpired", .bool s.cacheExpired),
  ("valid", .bool s.valid),
  ("remainingTime", .ofOption (s.remainingTime.map .int))]

end SessionInfo

/-- The answer to a request for the session. -/
def sessionAnswer : Decoder SessionInfo := fun j => do
  let ms ← members "SessionStateResponse" [field "sessionState" .required SessionInfo.decode] j
  required ms "sessionState" SessionInfo.decode

/-- A group of settings. -/
structure SettingsGroup where
  /-- What tells groups apart. -/
  id : String
  /-- The name shown to people. -/
  displayName : String

namespace SettingsGroup

/-- The fields of a group. -/
def fields : List Field :=
  [field "id" .required string, field "displayName" .required string]

/-- A group. -/
def decode : Decoder SettingsGroup := fun j => do
  let ms ← members "ApiSettingsGroup" fields j
  return { id := ← required ms "id" string, displayName := ← required ms "displayName" string }

/-- The group with all its fields. -/
def encode (g : SettingsGroup) : Json := .obj [
  ("id", .str g.id),
  ("displayName", .str g.displayName)]

end SettingsGroup

/-- One setting of the product. -/
structure Setting where
  /-- What tells settings apart; the first of equal keys counts. -/
  key : String
  /-- The name shown to people. -/
  displayName : Option String
  /-- The group it belongs to. -/
  groupId : Option String
  /-- Its value, if it has one. -/
  value : Option Json

namespace Setting

/-- The fields of a setting. -/
def fields : List Field := [
  field "key" .required string,
  field "displayName" .optional (nullable string),
  field "groupId" .optional (nullable string),
  field "value" .optional (nullable any)]

/-- A setting. -/
def decode : Decoder Setting := fun j => do
  let ms ← members "ApiSetting" fields j
  return {
    key := ← required ms "key" string
    displayName := ← optional ms "displayName" string
    groupId := ← optional ms "groupId" string
    value := ← optional ms "value" any }

/-- The setting with all its fields. -/
def encode (s : Setting) : Json := .obj [
  ("key", .str s.key),
  ("displayName", .ofString? s.displayName),
  ("groupId", .ofString? s.groupId),
  ("value", .ofOption s.value)]

end Setting

/-- The settings of the product, with their groups. -/
structure ProductSettings where
  /-- The groups. -/
  groups : List SettingsGroup
  /-- The settings. -/
  settings : List Setting

namespace ProductSettings

/-- The fields of the settings. -/
def fields : List Field := [
  field "groups" .defaulted (list SettingsGroup.decode),
  field "settings" .defaulted (list Setting.decode)]

/-- The settings. -/
def decode : Decoder ProductSettings := fun j => do
  let ms ← members "ApiProductSettings" fields j
  return {
    groups := ← defaulted ms "groups" (list SettingsGroup.decode) []
    settings := ← defaulted ms "settings" (list Setting.decode) [] }

/-- The settings with all their fields. -/
def encode (s : ProductSettings) : Json := .obj [
  ("groups", .arr (s.groups.map SettingsGroup.encode)),
  ("settings", .arr (s.settings.map Setting.encode))]

/-- The value of the first setting with a key, if it has one. -/
def valueOf? (s : ProductSettings) (key : String) : Option Json :=
  (s.settings.find? fun e => e.key = key).bind Setting.value

end ProductSettings

/-- The answer to a request for the settings. -/
def settingsAnswer : Decoder ProductSettings := fun j => do
  let ms ← members "ProductSettingsResponse" [field "settings" .required ProductSettings.decode] j
  required ms "settings" ProductSettings.decode

end Larder.Api
