import ConsensusLink.Text.Uri
/-!
# Where log lines and spans go

A program collects a few parameters and derives from them where its log lines go: always to the
console, to a file that is renewed from time to time if a directory is given, and to a collector of
spans if one is given. Here stand the parameters, what is derived from them, and the two ways in
which installing it fails. Writing log lines is not the business of this library.
-/

namespace ConsensusLink.Logging

/-- The name of a service: its base name, with a label behind a percent sign if there is one. -/
def serviceName (base : String) (label : Option String) : String :=
  match label with
  | some label => base ++ "%" ++ label
  | none => base

/-- Which events of a span are logged. -/
structure SpanEvents where
  /-- It is created. -/
  new : Bool := false
  /-- It is entered. -/
  enter : Bool := false
  /-- It is left. -/
  exit : Bool := false
  /-- It is closed; this tells how long it took. -/
  close : Bool := false
deriving DecidableEq, Inhabited, Repr

/-- What goes to the console. -/
structure ConsoleConfig where
  /-- Whether lines are JSON. -/
  isJson : Bool := false
  /-- Which events of spans are logged. -/
  spans : SpanEvents := { close := true }
  /-- Whether lines go to the error stream, for programs whose results go to the console. -/
  toErrors : Bool := false
deriving DecidableEq, Inhabited, Repr

/-- How often a log file is renewed. -/
inductive Rotation where
  /-- Every day. -/
  | daily
  /-- Every hour. -/
  | hourly
deriving DecidableEq, Inhabited, Repr

/-- What goes to log files. -/
structure FileConfig where
  /-- The directory of the files. -/
  directory : String
  /-- What the names of the files begin with. -/
  baseName : String
  /-- How often the file is renewed. -/
  rotation : Rotation := .daily
  /-- Whether lines are JSON. -/
  isJson : Bool := false
deriving DecidableEq, Inhabited, Repr

/-- The name of the log file of a given date. -/
def FileConfig.fileName (c : FileConfig) (date : String) : String :=
  if c.baseName = "" then date else c.baseName ++ "." ++ date

/-- The collector of spans. -/
structure CollectorConfig where
  /-- Where it is. -/
  url : String
  /-- How long one export may take, in milliseconds. -/
  timeoutMs : UInt64 := 10000
deriving DecidableEq, Inhabited, Repr

/-- Whether a collector can be addressed. One without an address is looked for in the usual
place. -/
def CollectorConfig.isUsable (c : CollectorConfig) : Bool := c.url = "" || Uri.isWellFormed c.url

/-- What is said of the service along with its spans. -/
structure ServiceConfig where
  /-- The name of the service. -/
  name : String
  /-- Its version. -/
  version : Option String := none
  /-- Which instance of the service this is. -/
  instanceId : Option String := none
  /-- Whatever else is said, by name. -/
  extra : List (String × String) := []
deriving DecidableEq, Inhabited, Repr

/-- All that is said of a service, by name. What is said last of a name counts. -/
def ServiceConfig.attributes (c : ServiceConfig) : List (String × String) :=
  let said := [("service.name", c.name)] ++
    (c.version.map (("service.version", ·))).toList ++
    (c.instanceId.map (("service.instance.id", ·))).toList ++ c.extra
  said.foldl (fun all a => all.filter (·.1 ≠ a.1) ++ [a]) []

/-- Where log lines and spans go. -/
structure Config where
  /-- The service that logs. -/
  service : ServiceConfig := { name := "(consensus-service)" }
  /-- The console. -/
  console : ConsoleConfig := {}
  /-- Log files, if any. -/
  file : Option FileConfig := none
  /-- The collector of spans, if any. -/
  collector : Option CollectorConfig := none
deriving DecidableEq, Inhabited, Repr

/-- What a program collects from its arguments and surroundings. -/
structure Parameters where
  /-- The base name of the service. -/
  base : String
  /-- A label of this deployment. -/
  label : Option String := none
  /-- Where the collector of spans is. -/
  collectorUrl : Option String := none
  /-- Where log files go. -/
  directory : Option String := none
  /-- What the names of log files begin with, if not with the base name. -/
  fileBaseName : Option String := none
  /-- Whether lines on the console are JSON. -/
  isJson : Bool := false
  /-- Whether lines go to the error stream. -/
  toErrors : Bool := false
deriving DecidableEq, Inhabited, Repr

/-- What follows from the parameters. -/
def Parameters.config (p : Parameters) : Config where
  service := { name := serviceName p.base p.label }
  console := { isJson := p.isJson, toErrors := p.toErrors }
  file := p.directory.map fun directory => ⟨directory, p.fileBaseName.getD p.base, .daily, false⟩
  collector := p.collectorUrl.map fun url => { url }

/-- Why logging cannot be installed. -/
inductive InstallFailure where
  /-- The collector cannot be addressed. -/
  | unusableCollector
  /-- It is installed already. -/
  | alreadyInstalled
deriving DecidableEq, Inhabited, Repr

/-- The wording of a failure. -/
def InstallFailure.message : InstallFailure → String
  | unusableCollector => "failed to install otlp pipeline: invalid address"
  | alreadyInstalled => "global subscriber already set: logging is installed"

/-- Whether logging can be installed in a process in which it is installed already or not. The
collector is looked at first; by then the log file has been created. -/
def Config.install (c : Config) (isInstalled : Bool) : Except InstallFailure Unit :=
  if c.collector.any (!·.isUsable) then .error .unusableCollector
  else if isInstalled then .error .alreadyInstalled
  else .ok ()

end ConsensusLink.Logging
