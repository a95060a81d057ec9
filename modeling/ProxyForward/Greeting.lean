import ProxyForward.BruteForce
import ProxyForward.PairCommand

namespace ProxyForward
open AuthLimit
set_option autoImplicit true

def protocolVersion : Int := 1

def kindControl : String := "control"
def kindData : String := "data"

def errCodeAgentConflict : String := "agent_conflict"
def errCodeVersion : String := "version"

/-- A hello on the wire, with what decides before its credential does. -/
structure Greeting where
  protocolVersion : Int
  kind : String
  hello : Hello
  deriving DecidableEq, Repr

inductive FirstFrame
  | unread
  | notHello
  | badHello
  | hello (g : Greeting)
  deriving DecidableEq, Repr

structure HelloOK where
  protocolVersion : Int
  sessionGeneration : Nat
  capabilities : List String
  assignedAgentID : String
  gatewayID : String
  configSeedNeeded : Bool
  deriving DecidableEq, Repr

/-- What the peer gets to read: nothing and the connection closes, a refusal, or a welcome. -/
inductive Reply
  | closed
  | refused (code message : String)
  | welcome (ok : HelloOK)
  deriving DecidableEq, Repr

/-- What a gateway has at a connection: whether the limiter lets the address in, the credentials and
the records, the actor's answer to a session, and whether it wants a seed of it. -/
structure Gate where
  allowed : Bool
  auth : Authority
  store : AgentStore
  now : Int
  written : Bool
  ptr : Nat
  ip : String
  gatewayID : String
  isPrint : Char → Bool
  admitted : AgentSession → Option Nat
  needsSeed : AgentSession → Bool

/-- What comes of a connection. `counted` is a failure noted against the address, `data` a dial-back
that is handed on to the player who waits for it. -/
structure Greeted where
  reply : Reply
  session : Option AgentSession
  counted : Bool
  data : Option (Hello × Identity)

def Greeted.refused (code message : String) (counted : Bool) : Greeted :=
  ⟨.refused code message, none, counted, none⟩

def Greeted.closed (counted : Bool) : Greeted := ⟨.closed, none, counted, none⟩

namespace Gate

/-- The end of a handler's opening: an identity of the kind `control` becomes a session. -/
def welcome (gate : Gate) (hello : Hello) (i : Identity) : Greeted :=
  let sess := buildSession gate.ptr hello gate.ip i
  match gate.admitted sess with
  | none => .closed false
  | some gen =>
    let ok := if i.pubKey.isSome then
        ⟨protocolVersion, gen, sess.caps, i.agentID, gate.gatewayID, gate.needsSeed sess⟩
      else ⟨protocolVersion, gen, sess.caps, "", "", false⟩
    ⟨.welcome ok, some sess, false, none⟩

/-- The answer to a hello; a dial-back is for a connection of its own. -/
def greet (gate : Gate) (quic : Bool) (g : Greeting) : Greeted :=
  if ¬gate.allowed then .closed false
  else if g.protocolVersion ≠ protocolVersion then
    .refused errCodeVersion ("gateway speaks protocol " ++ toString protocolVersion ++
      ", agent sent " ++ toString g.protocolVersion ++ " — update the older side") false
  else match (gate.auth.compositeValidate gate.store g.hello gate.now gate.written).1 with
    | .error err =>
      let (code, message, countFail) := authErrorReply err
      .refused code message countFail
    | .ok i =>
      if g.kind = kindControl then gate.welcome g.hello i
      else if quic then
        .refused errCodeVersion
          ("connection kind " ++ quote gate.isPrint g.kind ++ " not supported over quic") false
      else if g.kind = kindData then ⟨.closed, none, false, some (g.hello, i)⟩
      else
        .refused errCodeVersion
          ("connection kind " ++ quote gate.isPrint g.kind ++ " not supported") false

/-- `handleControlConn` and, over QUIC, `handleQUICSession`, up to the welcome. -/
def handle (gate : Gate) (quic : Bool) : FirstFrame → Greeted
  | .unread | .notHello | .badHello => .closed gate.allowed
  | .hello g => gate.greet quic g

@[simp] theorem handle_hello (gate : Gate) (quic : Bool) (g : Greeting) :
    gate.handle quic (.hello g) = gate.greet quic g := rfl

end Gate

/-- Why an attempt to connect fails. The first four are configuration errors. -/
inductive LinkError
  | badToken (said : String)
  | agentConflict (said : String)
  | version (said : String)
  | revoked (said : String)
  | refused (code message : String)
  | io
  deriving DecidableEq, Repr

/-- Retrying cannot fix the error. -/
def LinkError.isFatal : LinkError → Bool
  | badToken _ | agentConflict _ | version _ | revoked _ => true
  | refused .. | io => false

/-- What the agent takes from the reply: the capabilities, and whether a seed is wanted. -/
def helloExchange : Reply → Except LinkError (List String × Bool)
  | .closed => .error .io
  | .refused code message =>
    if code = errCodeBadToken then .error (.badToken message)
    else if code = errCodeAgentConflict then .error (.agentConflict message)
    else if code = errCodeVersion then .error (.version message)
    else if code = errCodeRevoked then .error (.revoked message)
    else .error (.refused code message)
  | .welcome ok => .ok (ok.capabilities, ok.configSeedNeeded)

end ProxyForward
