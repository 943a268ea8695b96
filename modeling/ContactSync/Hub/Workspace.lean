/-
Workspaces and nodes.

A configuration names a workspace of the hub, the token that opens it and the node to act for. A node is the workspace
seen through one node id; it makes the requests, which all lead below the workspace and carry the token.

- `Config.ofEnvironment`: the configuration that a set of variables gives.
- `Node.url`, `Node.request`: where requests go and what they carry.
-/
import ContactSync.Hub.Request
import ContactSync.Hub.Failure
import ContactSync.Text.Blank
import ContactSync.Text.Quoted

namespace ContactSync

/-- credentials and location of a workspace -/
structure Config where
  workspaceId : String
  token : String
  nodeId : String
  baseUrl : String
  deriving DecidableEq, Repr

namespace Config

/-- where the hub is when nothing else is said -/
def defaultBaseUrl : String := "https://api.contactlab.it/hub/v1"

/-- a workspace at the usual place -/
def new (workspaceId token nodeId : String) : Config := ⟨workspaceId, token, nodeId, defaultBaseUrl⟩

def trimSlashes (s : String) : String :=
  String.ofList ((s.toList.reverse.dropWhile fun c => c == '/').reverse)

/-- the workspace at another place -/
def withBaseUrl (c : Config) (url : String) : Config := { c with baseUrl := trimSlashes url }

/-- a variable that has to be more than blank -/
def required (lookup : String → Option String) (name : String) : Except ConfigFault String :=
  match lookup name with
  | some value => if Text.isBlank value then .error (.missing name) else .ok value
  | none => .error (.missing name)

/-- whether a place can be meant as one: it starts with http and so is not blank -/
def startsHttp (url : String) : Bool :=
  ['h', 't', 't', 'p'].isPrefixOf url.toList

/-- the configuration that variables give: workspace, token and node are looked for in this order -/
def ofEnvironment (lookup : String → Option String) : Except ConfigFault Config := do
  let workspaceId ← required lookup "CONTACTHUB_WORKSPACE_ID"
  let token ← required lookup "CONTACTHUB_TOKEN"
  let nodeId ← required lookup "CONTACTHUB_NODE_ID"
  let config := new workspaceId token nodeId
  match lookup "CONTACTHUB_BASE_URL" with
  | none => return config
  | some url => if startsHttp url then return config.withBaseUrl url else throw (.invalidBaseUrl url)

/-- the configuration for a log, without the token -/
def debug (c : Config) : String :=
  "WorkspaceConfig \x7b workspace_id: " ++ Text.quoted c.workspaceId ++ ", token: \"***\", node_id: " ++
    Text.quoted c.nodeId ++ ", base_url: " ++ Text.quoted c.baseUrl ++ " \x7d"

end Config

/-- a workspace seen through one node -/
structure Node where
  config : Config
  nodeId : String
  deriving DecidableEq, Repr

/-- the node that the configuration names -/
def Config.defaultNode (c : Config) : Node := ⟨c, c.nodeId⟩

namespace Node

/-- the address below the workspace that these segments lead to -/
def url (n : Node) (segments : List String) : String :=
  segments.foldl (fun text s => text ++ "/" ++ s) (n.config.baseUrl ++ "/workspaces/" ++ n.config.workspaceId)

/-- a request below the workspace, with the token -/
def request (n : Node) (method : Method) (segments : List String) : Request :=
  ((Request.new method (n.url segments)).withHeader "Authorization" ("Bearer " ++ n.config.token)).withHeader
    "Content-Type" "application/json"

/-- the node for a log, without the token -/
def debug (n : Node) : String :=
  "Node \x7b workspace: Workspace \x7b config: " ++ n.config.debug ++ ", .. \x7d, node_id: " ++
    Text.quoted n.nodeId ++ " \x7d"

end Node

end ContactSync
