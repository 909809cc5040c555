-- SUMMARY: Requests to a key host, and a key host that follows a script.
import KeyInjection.KeyHost.Request
import KeyInjection.KeyHost.Response
import KeyInjection.Session

/-!
# Key hosts

A key host is whatever answers a posted JSON text with bytes or a failure. A provisioning request
posts once and reads the answer. The scripted key host records every request it gets, then answers
as its script says.
-/

namespace KeyInjection

/-- Something that answers posted JSON texts, with states `η`. -/
structure KeyHost (η : Type) where
  post : String → String → η → Except Error Bytes × η

/-- How long a connection to a key host may take, in milliseconds, unless told otherwise. -/
def KeyHost.connectTimeoutMs : Nat := 15000

def KeyHost.requestTimeoutMs : Nat := 30000

/-- A terminal behind a channel, and a key host. -/
def Surroundings.of (ch : Channel σ) (h : KeyHost η) : Surroundings (σ × η) where
  exchange i c s := let (r, d) := ch.exchange i c s.1; (r, (d, s.2))
  post url body s := let (r, k) := h.post url body s.2; (r, (s.1, k))

namespace Session

def requestProvisioning (url : String) (r : ProvisioningRequest) :
    Session ε (Except Error ProvisioningResponse) :=
  post url r.body fun
    | .ok answer => done (ProvisioningResponse.ofBytes answer)
    | .error e => done (.error e)

end Session

-- ---------------------------------------------------------------------------
-- The scripted key host
-- ---------------------------------------------------------------------------

inductive HostScript where
  | respond (body : Bytes)
  | unreachable
  deriving DecidableEq, Repr

/-- The script of a key host and the requests it got, the latest last. -/
structure ScriptedHost where
  script : HostScript
  requests : List (String × Json)

namespace ScriptedHost

def successMembers : List (String × String) := [
  ("hsmCert", "-----BEGIN CERTIFICATE-----\nMIIBsim\n-----END CERTIFICATE-----\n"),
  ("kbpk", "0123456789abcdef0123456789abcdef"),
  ("kbpkSig", "deadbeefcafebabe"),
  ("pinIksn", "FFFF9876543210E00001"),
  ("pinTr31", "B0096P0TE00N0100KS1800604B120F9292800001"),
  ("result", "Success"),
  ("sredIksn", "FFFF9876543210E00000"),
  ("sredTr31", "B0096B1TX00N0100KS1800604B120F9292800000")]

def success : HostScript := .respond (textBytes (Json.objectText successMembers))

/-- A key host with a script that got no request yet. -/
def ofScript (s : HostScript) : ScriptedHost := ⟨s, []⟩

def setScript (s : HostScript) (h : ScriptedHost) : ScriptedHost := { h with script := s }

/-- Records a request and answers it. -/
def post (url body : String) (h : ScriptedHost) : Except Error Bytes × ScriptedHost :=
  match Json.parse? body with
  | none => (.error (.invalidArgument "request is not valid JSON"), h)
  | some request =>
    let h := { h with requests := h.requests ++ [(url, request)] }
    match h.script with
    | .respond b => (.ok b, h)
    | .unreachable => (.error (.hostUnreachable "connection refused"), h)

end ScriptedHost

def KeyHost.scripted : KeyHost ScriptedHost := ⟨ScriptedHost.post⟩

end KeyInjection
