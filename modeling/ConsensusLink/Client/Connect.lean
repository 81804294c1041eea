import ConsensusLink.Client.Time
import ConsensusLink.Rpc.Endpoint
/-!
# A client of a node that is reached over a connection

The client that a configuration describes, over an end of a connection to the address in it. Its
coordinator is started.
-/

namespace ConsensusLink

/-- A client of a node that is reached over a connection. -/
abbrev ConnectedClient := Client Rpc.Endpoint (Outcome Answer)

/-- A client over a connection to the configured address, if it can be connected to. -/
def Client.connect (config : ClientConfig) (isReachable : HttpUrl → Bool)
    (receptions : CallTopic → List Rpc.Reception) : Except Failure ConnectedClient := do
  let endpoint ← Rpc.Endpoint.connect config.rpc isReachable receptions
  return (Client.ofConfig config Rpc.Endpoint.remote endpoint).startCoordinator

end ConsensusLink
