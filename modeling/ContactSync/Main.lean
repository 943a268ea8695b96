/-
The command line tool: reads variables and arguments, talks to the hub over a plain connection, prints the outcome.
-/
import ContactSync.CommandLine.Session
import ContactSync.Hub.Message
import Std.Async.DNS
import Std.Async.TCP

open ContactSync

/-- the variables that the tool looks at -/
def knownVariables : List String :=
  ["CONTACTHUB_WORKSPACE_ID", "CONTACTHUB_TOKEN", "CONTACTHUB_NODE_ID", "CONTACTHUB_BASE_URL", Session.nodeVariable]

def readEnvironment : IO Variables := do
  let values ← knownVariables.mapM fun name => return (← IO.getEnv name).map fun value => (name, value)
  return values.filterMap id

/-- the variables of the file in the working directory, when there is one -/
def readVariableFile : IO Variables := do
  try
    return Variables.ofFile (← IO.FS.readFile ".env")
  catch _ => return []

/-- everything that comes in before the other side closes the connection -/
partial def receiveAll (client : Std.Async.TCP.Socket.Client) (sofar : ByteArray) : Std.Async.Async ByteArray := do
  match ← client.recv? 65536 with
  | some bytes => receiveAll client (sofar ++ bytes)
  | none => return sofar

/-- sends bytes to the first address of a host that takes them, and waits for the answer -/
def talk (target : Target) (bytes : ByteArray) : Std.Async.Async ByteArray := do
  let addresses ← Std.Async.DNS.getAddrInfo target.host (toString target.tcpPort)
  let tcpPort := target.tcpPort.toUInt16
  let some address := addresses[0]? | throw (IO.userError "no address")
  let client ← Std.Async.TCP.Socket.Client.mk
  client.connect (match address with
    | .v4 addr => .v4 ⟨addr, tcpPort⟩
    | .v6 addr => .v6 ⟨addr, tcpPort⟩)
  client.send bytes
  receiveAll client ByteArray.empty

/-- sends a request over a connection of its own -/
def transmit (request : Request) : IO Reply := do
  match Target.ofUrl? request.url with
  | none => return Exchange.unreachable.reply
  | some target =>
    try
      return (Message.exchange (← (talk target (Message.ofRequest request target)).block)).reply
    catch _ => return Exchange.unreachable.reply

def main (arguments : List String) : IO UInt32 := do
  let outcome ← (Session.dialogue arguments (← readEnvironment) (← readVariableFile)).hold transmit
  (← IO.getStdout).putStr outcome.output
  return outcome.status.toUInt32
