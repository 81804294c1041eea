/-!
# The arguments of the probe

`Probe.Arguments.parse` reads the arguments of a program that asks a consensus node for a report:
options, a command, and the argument of the command. An option takes the argument behind it as its
value, whatever it is, and is given once at most. Behind a double hyphen nothing is an option.
Asking for help is an outcome of its own; so is every mistake in the arguments, which are read in
order up to the first mistake.
-/

namespace ConsensusLink.Probe

/-- What is asked for. -/
inductive Command where
  /-- The counts and diagnostics of the node. -/
  | status
  /-- A batch and its base layer block. -/
  | batch (number : UInt64)
  /-- The batch that contains a message. -/
  | message (index : UInt64)
  /-- Whether the lease is held. -/
  | lease
deriving DecidableEq, Inhabited, Repr

namespace Command

/-- The name of a command. -/
def name : Command → String
  | status => "status"
  | batch _ => "batch"
  | message _ => "message"
  | lease => "lease"

end Command

/-- Why there are no arguments to work with. -/
inductive Stop where
  /-- Help was asked for. -/
  | help
  /-- The arguments are not as they should be. -/
  | usage
deriving DecidableEq, Inhabited, Repr

/-- How the probe is called. -/
def usage : String :=
  "Usage: consensus-probe [-c <config>] [-u <rpc-url>] [-w <wait-ms>] <command>\n\n" ++
  "Asks a consensus node and prints what it answers as JSON.\n\n" ++
  "Options:\n" ++
  "  -c, --config   the file of the configuration\n" ++
  "  -u, --rpc-url  where the node is, if not where the configuration says\n" ++
  "  -w, --wait-ms  how long each answer is waited for, in milliseconds\n\n" ++
  "Commands:\n" ++
  "  status           the counts and diagnostics of the node\n" ++
  "  batch <number>   a batch and its base layer block\n" ++
  "  message <index>  the batch that contains a message\n" ++
  "  lease            whether the node holds the lease"

/-- The arguments of the probe. -/
structure Arguments where
  /-- The file of the configuration. -/
  config : Option String := none
  /-- Where the node is, if not where the configuration says. -/
  rpcUrl : Option String := none
  /-- How long each answer is waited for, in milliseconds. -/
  waitMs : UInt64 := 10000
  /-- What is asked for. -/
  command : Command
deriving DecidableEq, Inhabited, Repr

namespace Arguments

/-- A whole number below `2 ^ 64` in decimal digits, with or without a plus sign. -/
def word? (s : String) : Option UInt64 := do
  let digits := match s.toList with
    | '+' :: rest => rest
    | cs => cs
  if digits ≠ [] ∧ digits.all Char.isDigit then
    let n := digits.foldl (fun n d => n * 10 + (d.toNat - 48)) 0
    if n < UInt64.size then some (UInt64.ofNat n) else none
  else none

/-- Whether an argument asks for help. -/
def asksHelp (s : String) : Bool := s = "--help" || s = "help"

/-- Whether an argument has the form of an option. -/
def looksLikeOption (s : String) : Bool := s.toList.head? = some '-'

/-- Reads the arguments of a command that takes one number or none: the number given so far, whether
help was asked for, and whether options have ended. -/
def readOperand (takesOne : Bool) :
    Option UInt64 → Bool → Bool → List String → Except Stop (Option UInt64)
  | given, help, _, [] =>
    if help then .error .help
    else if takesOne ∧ given.isNone then .error .usage
    else .ok given
  | given, help, ended, s :: rest =>
    if asksHelp s ∧ !ended then readOperand takesOne given true ended rest
    else if looksLikeOption s ∧ !ended then
      if s = "--" then readOperand takesOne given help true rest else .error .usage
    else if takesOne ∧ given.isNone then
      match word? s with
      | some n => readOperand takesOne (some n) help ended rest
      | none => .error .usage
    else .error .usage

/-- Reads a command and its arguments. -/
def readCommand (name : String) (rest : List String) : Except Stop Command :=
  let withNumber (f : UInt64 → Command) : Except Stop Command := do
    match ← readOperand true none false false rest with
    | some n => .ok (f n)
    | none => .error .usage
  let bare (c : Command) : Except Stop Command := do
    let _ ← readOperand false none false false rest
    .ok c
  match name with
  | "status" => bare .status
  | "batch" => withNumber .batch
  | "message" => withNumber .message
  | "lease" => bare .lease
  | _ => .error .usage

/-- The options as far as they were read. -/
structure Options where
  /-- The file of the configuration. -/
  config : Option String := none
  /-- Where the node is. -/
  rpcUrl : Option String := none
  /-- How long each answer is waited for. -/
  waitMs : Option UInt64 := none
deriving Inhabited

/-- Sets an option, if there is such an option, it was not set before and the value can be read. -/
def Options.set? (o : Options) (name value : String) : Option Options :=
  match name, o with
  | "-c", { config := none, .. } | "--config", { config := none, .. } =>
    some { o with config := some value }
  | "-u", { rpcUrl := none, .. } | "--rpc-url", { rpcUrl := none, .. } =>
    some { o with rpcUrl := some value }
  | "-w", { waitMs := none, .. } | "--wait-ms", { waitMs := none, .. } =>
    (word? value).map fun ms => { o with waitMs := some ms }
  | _, _ => none

/-- Reads arguments up to and with the command, going on with the options read so far. Help that is
asked for before a command is about the command. -/
def readAll (o : Options) (help ended : Bool) : List String → Except Stop Arguments
  | [] => .error (if help then .help else .usage)
  | s :: rest =>
    if asksHelp s ∧ !ended then readAll o true ended rest
    else if s = "--" ∧ !ended then readAll o help true rest
    else if looksLikeOption s ∧ !ended then
      match rest with
      | value :: rest =>
        if help then .error .usage
        else
          match o.set? s value with
          | some o => readAll o help ended rest
          | none => .error .usage
      | [] => .error .usage
    else do
      let command ← readCommand s (if help then "help" :: rest else rest)
      .ok { config := o.config, rpcUrl := o.rpcUrl, waitMs := o.waitMs.getD 10000, command }

/-- Reads the arguments of the probe. -/
def parse (args : List String) : Except Stop Arguments := readAll {} false false args

end Arguments

end ConsensusLink.Probe
