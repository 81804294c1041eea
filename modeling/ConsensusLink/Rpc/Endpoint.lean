import ConsensusLink.Client.Config
import ConsensusLink.Rpc.Response
import ConsensusLink.Text.HttpUrl
/-!
# A node that is reached over a connection

An `Endpoint` is the client's end of a connection to a consensus node: it numbers the requests,
limits how long each may take and reads what comes back. What comes back is decided beforehand, as
a list of deliveries for each method, the last of which repeats; so an endpoint is a `Remote` like
any other. `Endpoint.connect` refuses addresses that cannot be connected to.
-/

namespace ConsensusLink.Rpc

/-- What comes back for a request, and after how long. -/
structure Reception where
  /-- How long it takes, in milliseconds. -/
  delayMs : Nat
  /-- What comes back. -/
  delivery : Delivery
deriving Inhabited

/-- A request that was sent. -/
structure SentRequest where
  /-- When it was sent. -/
  time : Nat
  /-- Where it was sent to. -/
  url : HttpUrl
  /-- The request. -/
  request : Request

/-- The client's end of a connection. -/
structure Endpoint where
  /-- The address of the other end. -/
  url : HttpUrl
  /-- How long a request may take, in milliseconds. -/
  timeoutMs : Nat
  /-- Whether there is anybody at the other end. -/
  isReachable : Bool
  /-- What comes back, by kind of call. -/
  receptions : CallTopic → List Reception
  /-- The requests that were sent, latest first. -/
  sent : List SentRequest := []
  /-- The number of the next request. -/
  nextId : Nat := 0

namespace Endpoint

/-- The end of a connection to an address, if it can be connected to. Nothing is sent before the
first request. -/
def connect (c : RpcConfig) (isReachable : HttpUrl → Bool)
    (receptions : CallTopic → List Reception) : Except Failure Endpoint :=
  match HttpUrl.parse? c.url with
  | none => .error (noAnswer "the address cannot be connected to")
  | some url => .ok {
      url
      timeoutMs := c.requestTimeoutMs.toNat
      isReachable := isReachable url
      receptions }

/-- What comes back next for a kind of call. -/
def nextReception (e : Endpoint) (t : CallTopic) : Reception :=
  let earlier := e.sent.countP (·.request.call.topic = t)
  let all := e.receptions t
  (all[earlier]? <|> all.getLast?).getD ⟨0, .closed⟩

/-- How a call ends that something comes back for, or nothing. -/
def conclude (r : Request) (d : Delivery) : Outcome Answer :=
  (d.outcome? r).getD (.error .timeout)

/-- Sends a request at a given time and waits for what comes back, as long as it may take. -/
def send (e : Endpoint) (call : Call) (now : Nat) : CallProgress (Outcome Answer) × Endpoint :=
  let r : Request := ⟨e.nextId, call⟩
  let numbered := { e with nextId := e.nextId + 1 }
  if !e.isReachable then (.ends (.error (noAnswer "the connection was refused")), numbered)
  else
    let reception := e.nextReception call.topic
    let sent := { numbered with sent := ⟨now, e.url, r⟩ :: e.sent }
    let isLost := match reception.delivery with
      | .silence => true
      | _ => e.timeoutMs < reception.delayMs
    let wait := if isLost then e.timeoutMs else reception.delayMs
    let o := if isLost then .error .timeout else conclude r reception.delivery
    if wait = 0 then (.ends o, sent) else (.waits wait o, sent)

/-- How calls over a connection go. -/
def remote : Remote Endpoint (Outcome Answer) where
  begin call now e := e.send call now
  resume _ o _ e := (.ends o, e)

/-- Makes a call and waits until it ends. -/
def call (e : Endpoint) (call : Call) : Outcome Answer × Endpoint :=
  match e.send call 0 with
  | (.ends o, e) | (.waits _ o, e) => (o, e)
  | (.breaks, e) => (.error (noAnswer "the call broke down"), e)

end Endpoint

end ConsensusLink.Rpc
