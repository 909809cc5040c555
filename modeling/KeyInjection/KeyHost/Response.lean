-- SUMMARY: Reading a key host's answer.
import KeyInjection.Error
import KeyInjection.Json.Parser

/-!
# Provisioning responses

A key host answers with a JSON object that tells a result. Only the result `Success` comes with
key material, and then all seven fields must be there. What an answer means depends on the last
value of each member alone. Of several faults the result is looked at first, then the types of the
fields in the order of their names, then which fields are missing in the order they are declared.
-/

namespace KeyInjection

/-- The key material that a key host issues. -/
structure ProvisioningResponse where
  /-- Certificate of the key host. -/
  hsmCert : String
  /-- Key block protection key, in hexadecimal. -/
  kbpk : String
  /-- Signature of that key, in hexadecimal. -/
  kbpkSig : String
  /-- Key block for card data. -/
  sredTr31 : String
  /-- Initial serial number of that key. -/
  sredIksn : String
  /-- Key block for PIN entry. -/
  pinTr31 : String
  /-- Initial serial number of that key. -/
  pinIksn : String
  deriving DecidableEq, Repr

/-- What is wrong with an answer that is neither key material nor a refusal. -/
inductive ResponseFault where
  | notUtf8
  | notJson
  | notObject
  | noResult
  | resultNotString
  | fieldNotString (found : Json)
  | missingField (name : String)
  deriving Repr

def ResponseFault.message : ResponseFault → String
  | .notUtf8 => "response is not valid UTF-8"
  | .notJson => "invalid JSON"
  | .notObject => "expected JSON object"
  | .noResult => "missing 'result' field"
  | .resultNotString => "'result' is not a string"
  | .fieldNotString found => s!"invalid type: {found.description}, expected a string"
  | .missingField name => s!"missing field `{name}`"

def ResponseFault.error (f : ResponseFault) : Error := .hostResponseMalformed f.message

namespace ProvisioningResponse

def successResult : String := "Success"

def fieldNames : List String :=
  ["hsmCert", "kbpk", "kbpkSig", "sredTr31", "sredIksn", "pinTr31", "pinIksn"]

/-- The fields, in the order of their names. -/
def sortedFieldNames : List String :=
  ["hsmCert", "kbpk", "kbpkSig", "pinIksn", "pinTr31", "sredIksn", "sredTr31"]

/-- The value of a field that is not a string, if it has one. -/
def wrongType? (members : List (String × Json)) (name : String) : Option Json :=
  match Json.lastMember? members name with
  | some (.string _) => none
  | found => found

def text? (members : List (String × Json)) (name : String) : Option String :=
  match Json.lastMember? members name with
  | some (.string s) => some s
  | _ => none

/-- The seven fields of an object, if all of them are strings. -/
def fields? (members : List (String × Json)) : Option ProvisioningResponse := do
  return {
    hsmCert := ← text? members "hsmCert"
    kbpk := ← text? members "kbpk"
    kbpkSig := ← text? members "kbpkSig"
    sredTr31 := ← text? members "sredTr31"
    sredIksn := ← text? members "sredIksn"
    pinTr31 := ← text? members "pinTr31"
    pinIksn := ← text? members "pinIksn"
  }

/-- What is wrong with the fields of an object that lacks some of them. -/
def fieldFault (members : List (String × Json)) : ResponseFault :=
  match sortedFieldNames.findSome? (wrongType? members) with
  | some found => .fieldNotString found
  | none =>
    .missingField ((fieldNames.find? fun name => (text? members name).isNone).getD "")

def ofJson : Json → Except Error ProvisioningResponse
  | .object members =>
    match Json.lastMember? members "result" with
    | none => .error ResponseFault.noResult.error
    | some (.string result) =>
      if result = successResult then
        match fields? members with
        | some r => .ok r
        | none => .error (fieldFault members).error
      else .error (.hostRejected result)
    | some _ => .error ResponseFault.resultNotString.error
  | _ => .error ResponseFault.notObject.error

def parse (body : String) : Except Error ProvisioningResponse :=
  match Json.parse? body with
  | some v => ofJson v
  | none => .error ResponseFault.notJson.error

def ofBytes (b : Bytes) : Except Error ProvisioningResponse :=
  match Bytes.text? b with
  | some body => parse body
  | none => .error ResponseFault.notUtf8.error

end ProvisioningResponse

end KeyInjection
