import ConsensusLink.Probe.Program
import ConsensusLink.Text.HttpMessage
import Std.Async.DNS
import Std.Async.TCP
import Std.Async.Timer
/-!
# The probe on the command line

`Probe.run` says which requests are sent when, given what came back for those before. The loop here
sends the next one when its time has come, adds what comes back to what is known, and asks again,
until nothing is left to send. Connections are not encrypted.
-/

namespace ConsensusLink.Probe

open Std.Async Std.Net

/-- What came back, by kind of call, in order. -/
abbrev Received := List (CallTopic × Rpc.Reception)

/-- What is known of a kind of call; nothing comes back for the request after that. -/
def Received.byTopic (rs : Received) (t : CallTopic) : List Rpc.Reception :=
  (rs.filter (·.1 = t)).map (·.2) ++ [⟨0, .silence⟩]

/-- Where a host listens. -/
def socketAddress (service : UInt16) : IPAddr → SocketAddress
  | .v4 addr => .v4 ⟨addr, service⟩
  | .v6 addr => .v6 ⟨addr, service⟩

/-- Reads until a whole response has arrived or the connection ends. -/
partial def receive (socket : TCP.Socket.Client) (sofar : ByteArray) :
    Async (Option HttpResponse) := do
  match ← socket.recv? 65536 with
  | none => return HttpResponse.read? true sofar.toList
  | some piece =>
    let sofar := sofar ++ piece
    match HttpResponse.read? false sofar.toList with
    | some response => return some response
    | none => receive socket sofar

/-- Posts a text to an address over a connection of its own. -/
def exchange (url : HttpUrl) (text : String) : Async Rpc.Delivery := do
  try
    let service := url.service.getD 80
    let host := String.ofList (HttpUrl.trim (fun c => c = '[' || c = ']') url.host.toList)
    let addrs ← DNS.getAddrInfo host (toString service)
    match addrs[0]?, url.isSecure with
    | some addr, false =>
      let socket ← TCP.Socket.Client.mk
      socket.connect (socketAddress service addr)
      socket.send (url.post text)
      match ← receive socket .empty with
      | some response => return .body response.status fun _ => response.text?.getD ""
      | none => return .closed
    | _, _ => return .closed
  catch _ => return .closed

/-- Sends a request and waits for what comes back, but not for ever. -/
def deliver (url : HttpUrl) (text : String) (limitMs : Nat) : IO Rpc.Reception := do
  let start ← IO.monoMsNow
  let tooLate : Async Rpc.Delivery := do
    Std.Async.sleep (.ofNat limitMs)
    return .silence
  let delivery ← (Async.race (exchange url text) tooLate).block
  return ⟨(← IO.monoMsNow) - start, delivery⟩

/-- Runs the program, sending its requests from `start` on. -/
partial def converse (s : Surroundings) (args : List String) (start : Nat) (known : Received) :
    IO Run := do
  let run := Probe.run { s with receptions := known.byTopic } args
  match run.sent.drop known.length with
  | [] => return run
  | next :: later =>
    let passed := (← IO.monoMsNow) - start
    IO.sleep (UInt32.ofNat (next.time - passed))
    let limit := (later.head?.map (·.time)).getD run.time
    let reception ← deliver next.url next.request.toJson.compress (limit - next.time)
    converse s args start (known ++ [(next.request.call.topic, reception)])

/-- Why a file cannot be read. -/
def fileError : IO.Error → String
  | .noFileOrDirectory .. => "No such file or directory (os error 2)"
  | .permissionDenied .. => "Permission denied (os error 13)"
  | .inappropriateType .. => "Is a directory (os error 21)"
  | e => toString e

/-- The bytes of the file of the configuration, if one is given. -/
def readConfig (args : List String) : IO (Except String Bytes) := do
  match (Arguments.parse args).toOption.bind Arguments.config with
  | none => return .ok []
  | some path =>
    try return .ok (← IO.FS.readBinFile path).toList
    catch e => return .error (fileError e)

/-- The date. -/
def today : IO String := do
  let time := Std.Time.WallTime.ofTimestamp (← Std.Time.Timestamp.now) Std.Time.TimeZone.UTC.offset
  return (Std.Time.PlainDateTime.ofWallTime time).date.toSQLDateString

/-- Opens the log file. -/
def openLog (c : Logging.FileConfig) : IO Unit := do
  IO.FS.createDirAll c.directory
  let _ ← IO.FS.Handle.mk (c.directory ++ "/" ++ c.fileName (← today)) .append

/-- Prints how a run ends. -/
def Ending.print : Ending → IO Unit
  | stopped .help => IO.println usage
  | stopped .usage => IO.eprintln usage
  | failed fault => IO.eprintln ("FATAL ERROR: " ++ fault.message)
  | reported report => IO.println report.toJson.pretty

/-- Asks a consensus node for a report and prints it. -/
def start (args : List String) : IO UInt32 := do
  let contents ← readConfig args
  let s : Surroundings := {
    collectorUrl := ← IO.getEnv "CONSENSUS_OTLP_URL"
    label := ← IO.getEnv "CONSENSUS_SVC_LABEL"
    logDirectory := ← IO.getEnv "CONSENSUS_LOG_DIR"
    configText := fun _ => contents
    isReachable := fun _ => true
    receptions := Received.byTopic [] }
  if let .ok _ := Arguments.parse args then s.logging.file.forM openLog
  let run ← converse s args (← IO.monoMsNow) []
  run.ending.print
  return run.ending.exitCode

end ConsensusLink.Probe

/-- The program. -/
def main (args : List String) : IO UInt32 := ConsensusLink.Probe.start args
