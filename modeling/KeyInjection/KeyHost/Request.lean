-- SUMMARY: Provisioning requests and their JSON text.
import KeyInjection.Json.Parser
import KeyInjection.Json.Printer

/-!
# Provisioning requests

A key host issues key material in exchange for four files that the terminal carries. The request
is one JSON object of strings. Read back, a request has each of its members exactly once, and
other members are skipped; an array of the five strings in order is a request as well.
-/

namespace KeyInjection

/-- What is sent to a key host. -/
structure ProvisioningRequest where
  prodSignCert : String
  terminalCert : String
  tempLoadCert : String
  suggestedIksn : String
  keyHostIndex : String
  deriving DecidableEq, Repr

namespace ProvisioningRequest

def defaultIndex : String := "1"

/-- The request made of the contents of the terminal's files. -/
def ofFiles (prodSignCert terminalCert tempLoadCert suggestedIksn : String) : ProvisioningRequest :=
  ⟨prodSignCert, terminalCert, tempLoadCert, suggestedIksn, defaultIndex⟩

/-- The names of the members, in the order they are written. -/
def names : List String :=
  ["prodSignCert", "terminalCert", "tempLoadCert", "suggestedIKSN", "keyHostIndex"]

def values (r : ProvisioningRequest) : List String :=
  [r.prodSignCert, r.terminalCert, r.tempLoadCert, r.suggestedIksn, r.keyHostIndex]

def body (r : ProvisioningRequest) : String := Json.objectText (names.zip r.values)

/-- The request with the given values, if there are as many as members. -/
def ofValues? : List String → Option ProvisioningRequest
  | [a, b, c, d, e] => some ⟨a, b, c, d, e⟩
  | _ => none

def text? : Json → Option String
  | .string s => some s
  | _ => none

/-- The value of a member that an object has exactly once. -/
def onlyMember? (members : List (String × Json)) (name : String) : Option String :=
  match members.filter (·.1 == name) with
  | [(_, v)] => text? v
  | _ => none

def parse? (text : String) : Option ProvisioningRequest :=
  match Json.parseMembers? names text with
  | some (.object members) => (names.mapM (onlyMember? members)).bind ofValues?
  | some (.array items) => (items.mapM text?).bind ofValues?
  | _ => none

end ProvisioningRequest

end KeyInjection
