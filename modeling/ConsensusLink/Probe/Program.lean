import ConsensusLink.Client.ConfigText
import ConsensusLink.Client.Connect
import ConsensusLink.Logging.Config
import ConsensusLink.Probe.Report
/-!
# The probe as a program

`Probe.run` is the whole program but for input and output: from its arguments, its surroundings and
what comes back over the connection it determines how and when the program ends, and the requests
that it sends. Logging is installed first, so that a mistake in it is found before one in the
configuration.
-/

namespace ConsensusLink.Probe

/-- What the program finds around it. -/
structure Surroundings where
  /-- Where the collector of spans is. -/
  collectorUrl : Option String := none
  /-- A label of this deployment. -/
  label : Option String := none
  /-- Where log files go. -/
  logDirectory : Option String := none
  /-- The bytes of a file, or why there are none. -/
  configText : String → Except String Bytes
  /-- Whether there is anybody at an address. -/
  isReachable : HttpUrl → Bool
  /-- What comes back for requests, by kind of call. -/
  receptions : CallTopic → List Rpc.Reception

/-- The base name of the program in its logs. -/
def serviceBase : String := "consensus-probe"

/-- Where log lines of the program go. The console carries the report, so they go to the error
stream. -/
def Surroundings.logging (s : Surroundings) : Logging.Config :=
  Logging.Parameters.config {
    base := serviceBase
    label := s.label
    collectorUrl := s.collectorUrl
    directory := s.logDirectory
    toErrors := true }

/-- Why the program fails. -/
inductive Fault where
  /-- There is no configuration. -/
  | config (e : ConfigFailure)
  /-- Logging cannot be installed. -/
  | logging (e : Logging.InstallFailure)
  /-- A request of the client fails, or it cannot connect. -/
  | client (e : Failure)
deriving DecidableEq, Inhabited, Repr

/-- The wording of a fault. -/
def Fault.message : Fault → String
  | config e => "config: " ++ e.message
  | logging e => "logging: " ++ e.message
  | client e => "consensus: " ++ e.message

/-- How the program ends. -/
inductive Ending where
  /-- The arguments ask for help or are not as they should be. -/
  | stopped (why : Stop)
  /-- It fails. -/
  | failed (fault : Fault)
  /-- It has a report. -/
  | reported (report : Report)

/-- The exit code of the program. -/
def Ending.exitCode : Ending → UInt32
  | stopped .help | reported _ => 0
  | stopped .usage | failed _ => 1

/-- The configuration that arguments lead to: the one in the file, if a file is given, with the
address of the node replaced if it is given. -/
def Arguments.loadConfig (a : Arguments) (configText : String → Except String Bytes) :
    Except ConfigFailure ClientConfig := do
  let config ← match a.config with
    | none => .ok {}
    | some path =>
      match configText path with
      | .ok bs => ClientConfig.ofBytes bs
      | .error reason => .error (.unreadable reason)
  return { config with rpc := { config.rpc with url := a.rpcUrl.getD config.rpc.url } }

/-- Carries the command of the arguments out. Returns also the client, once there is one. -/
def Arguments.execute (a : Arguments) (s : Surroundings) :
    Except Fault Report × Option ConnectedClient :=
  match s.logging.install false with
  | .error e => (.error (.logging e), none)
  | .ok () =>
    match a.loadConfig s.configText with
    | .error e => (.error (.config e), none)
    | .ok config =>
      match Client.connect config s.isReachable s.receptions with
      | .error e => (.error (.client e), none)
      | .ok c =>
        let (o, c) := c.report a.command a.waitMs.toNat
        (o.mapError .client, some c)

/-- What the program does. -/
structure Run where
  /-- How it ends. -/
  ending : Ending
  /-- The requests that it sends, in order. -/
  sent : List Rpc.SentRequest
  /-- When it ends, in milliseconds. -/
  time : Nat
  /-- Whether it opens a log file. -/
  opensLog : Bool

/-- Runs the program. -/
def run (s : Surroundings) (args : List String) : Run :=
  match Arguments.parse args with
  | .error why => ⟨.stopped why, [], 0, false⟩
  | .ok a =>
    let (o, c) := a.execute s
    let ending := match o with
      | .ok report => .reported report
      | .error fault => .failed fault
    match c with
    | some c => ⟨ending, c.node.sent.reverse, c.now, s.logging.file.isSome⟩
    | none => ⟨ending, [], 0, s.logging.file.isSome⟩

end ConsensusLink.Probe
