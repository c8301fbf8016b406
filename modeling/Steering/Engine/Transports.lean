import Steering.Engine.Basic
/-! The transports that an engine brings along. They make requests, which something else carries to
PoPs and probers, and read what comes back. -/

namespace Steering

/-- What becomes of the requests that are sent, by the moment at which they are: how many
milliseconds it takes, or that it never ends, and the response or why none came. -/
abbrev Http.Carrier := Nat → Http.Request → Option Nat × Except String Http.Response

/-- What becomes of a request. One that cannot be sent has failed at once. -/
def Http.Carrier.exchange (carrier : Http.Carrier) (now : Nat) (request : Http.Request) :
    Option Nat × Except Http.Failure Http.Response :=
  match request.route with
  | .error failure => (some 0, .error failure)
  | .ok _ =>
    let (delay, result) := carrier now request
    (delay, result.mapError .send)

namespace Refresh

/-- How a call ends, given how its exchange ended and how a response is read. -/
def Outcome.ofExchange {ε α : Type} (http : Http.Failure → ε)
    (read : Http.Response → Except ε α) : Except Http.Failure Http.Response → Outcome ε α
  | .error fault => .failure (http fault)
  | .ok response =>
    match read response with
    | .ok value => .success value
    | .error reason => .failure reason

/-- The reply to a call that is made by a request. -/
def Reply.ofExchange {ε α : Type} (http : Http.Failure → ε) (read : Http.Response → Except ε α)
    (exchange : Option Nat × Except Http.Failure Http.Response) : Reply ε α :=
  ⟨exchange.1, .ofExchange http read exchange.2⟩

end Refresh

namespace Engine

/-- The own transports of an engine: every PoP is asked on the status port, and the measurements
of a region are asked of its prober. -/
def ownTransports (engine : Engine) (statusPort : Nat) (carrier : Http.Carrier) :
    Refresh.Transports where
  fetch now address :=
    .ofExchange .http (PopStatus.ofResponse Http.defaultBodyLimit)
      (carrier.exchange now (PopStatus.request address statusPort))
  measure now region endpoint :=
    match engine.probers[region]? with
    | some prober =>
      .ofExchange .http (ProbeResult.latencyOfResponse Http.defaultBodyLimit)
        (carrier.exchange now (prober.request endpoint))
    | none => ⟨none, .crash⟩

end Engine

end Steering
