-- SUMMARY: The files an injection reads and the key files it writes.
import KeyInjection.KeyHost.Response
import KeyInjection.Text.Hex

/-!
# Files of an injection

Four bootstrap files identify a terminal to the key host. Seven key files hold what the host
issues, one for each field of its answer, in the order of the fields; two of the fields are
hexadecimal and their files hold the bytes they stand for. All fields are decoded before any file
is written, and the first field that cannot be is the one that is reported.
-/

namespace KeyInjection.Injection

def prodSignCertFile : String := "prod_sign.crt"

def terminalCertFile : String := "terminal.crt"

def tempLoadCertFile : String := "temp_load.crt"

/-- The file of the key serial number that the terminal suggests. -/
def suggestedIksnFile : String := "iksn.txt"

/-- The files read before the key host is asked, in order. -/
def bootstrapFiles : List String :=
  [prodSignCertFile, terminalCertFile, tempLoadCertFile, suggestedIksnFile]

/-- How the text of a field becomes the content of a file. -/
inductive KeyEncoding where
  | text
  /-- The bytes that the text is the hexadecimal form of. -/
  | hex
  deriving DecidableEq, Repr

def KeyEncoding.name : KeyEncoding → String
  | text => "Text"
  | hex => "Hex"

/-- A key file: its name, its encoding, and the field that it holds. -/
structure KeyField where
  name : String
  encoding : KeyEncoding
  field : ProvisioningResponse → String

/-- The key files, in the order they are written. -/
def keyFields : List KeyField := [
  ⟨"rki_hsm.crt", .text, (·.hsmCert)⟩,
  ⟨"rki_kbpk.bin", .hex, (·.kbpk)⟩,
  ⟨"rki_kbpk.sig", .hex, (·.kbpkSig)⟩,
  ⟨"rki_sred.tr31", .text, (·.sredTr31)⟩,
  ⟨"rki_sred.iksn", .text, (·.sredIksn)⟩,
  ⟨"rki_pin.tr31", .text, (·.pinTr31)⟩,
  ⟨"rki_pin.iksn", .text, (·.pinIksn)⟩]

def keyFiles : List String := keyFields.map (·.name)

/-- A key file ready to be written. -/
structure KeyFile where
  name : String
  data : Bytes
  deriving DecidableEq, Repr

/-- What may be shown of a key file: its name and its length, not its content. -/
def KeyFile.summary (f : KeyFile) : String :=
  "DerivedKeyFile \x7b name: \"" ++ f.name ++ "\", len: " ++ toString f.data.length ++ " \x7d"

/-- The key file made of a field of an answer, or the file's name and what is wrong with the
field. -/
def KeyField.derive (k : KeyField) (r : ProvisioningResponse) : Except (String × Error) KeyFile :=
  match k.encoding with
  | .text => .ok ⟨k.name, textBytes (k.field r)⟩
  | .hex =>
    match Hex.decode (k.field r) with
    | .ok data => .ok ⟨k.name, data⟩
    | .error e => .error (k.name, .hexDecode e)

def deriveKeyFiles (r : ProvisioningResponse) : Except (String × Error) (List KeyFile) :=
  keyFields.mapM (·.derive r)

end KeyInjection.Injection
