-- SUMMARY: Requests for key material are read back as they were made, and recorded one by one.
import KeyInjection.KeyHost.Client
import KeyInjection.Proofs.Json.RoundTrip
import KeyInjection.Proofs.Session.Runs

/-!
# Requests on the wire

The text that a request is sent as is read back as that request (`parse?_body`), and as the object
of its five members by readers that know nothing of requests (`jsonParse?_body`); so no two requests
have the same text.

The scripted key host gets each request as its object. It writes it down before it looks at its
script, so calls of a client are recorded one by one, whatever becomes of them
(`provisionAll_eq`).
-/

namespace KeyInjection

variable {ε σ τ : Type}

namespace ProvisioningRequest

/-! ## Texts -/

def members (r : ProvisioningRequest) : List (String × Json) := [
  ("prodSignCert", .string r.prodSignCert),
  ("terminalCert", .string r.terminalCert),
  ("tempLoadCert", .string r.tempLoadCert),
  ("suggestedIKSN", .string r.suggestedIksn),
  ("keyHostIndex", .string r.keyHostIndex)]

theorem stringMembers_zip (r : ProvisioningRequest) :
    Json.stringMembers (names.zip r.values) = r.members := rfl

/-- A reader of any JSON text reads the members. -/
theorem jsonParse?_body (r : ProvisioningRequest) : Json.parse? r.body = some (.object r.members) :=
  Json.parse?_objectText _

/-- A request has each of its members once. -/
theorem mapM_onlyMember?_members (r : ProvisioningRequest) :
    names.mapM (onlyMember? r.members) = some r.values := by
  simp [names, members, onlyMember?, text?, values]

/-- The text of a request is read back as the request. -/
theorem parse?_body (r : ProvisioningRequest) : parse? r.body = some r := by
  have hnames : ∀ m ∈ names.zip r.values, m.1 ∈ names := fun m hm => (List.of_mem_zip hm).1
  rw [parse?, body, Json.parseMembers?_objectText hnames, stringMembers_zip]
  dsimp only
  rw [mapM_onlyMember?_members]
  rfl

/-- Different requests have different texts. -/
theorem body_inj {r r' : ProvisioningRequest} : r.body = r'.body ↔ r = r' := by
  constructor
  · intro hbody
    have hread := parse?_body r
    rw [hbody, parse?_body] at hread
    exact (Option.some.inj hread).symm
  · rintro rfl
    rfl

end ProvisioningRequest

/-! ## Calls -/

/-- A request for key material is one post, and ends as the post fails or as its answer is
judged. -/
theorem Session.run_requestProvisioning (w : Surroundings σ) (s : σ) (url : String)
    (r : ProvisioningRequest) :
    (requestProvisioning url r : Session ε _).run w s =
      let posted := w.post url r.body s
      ⟨posted.1.bind ProvisioningResponse.ofBytes, posted.2, [.posted url r.body posted.1]⟩ := by
  rw [requestProvisioning, run_post]
  dsimp only
  cases (w.post url r.body s).1 <;> rfl

def HostScript.answer : HostScript → Except Error Bytes
  | .respond b => .ok b
  | .unreachable => .error (.hostUnreachable "connection refused")

/-- The scripted key host writes a request down, and answers by its script. -/
theorem KeyHost.post_scripted (h : ScriptedHost) (url : String) (r : ProvisioningRequest) :
    KeyHost.scripted.post url r.body h =
      (h.script.answer, { h with requests := h.requests ++ [(url, .object r.members)] }) := by
  simp only [scripted, ScriptedHost.post, r.jsonParse?_body]
  cases h.script <;> rfl

/-- A call of a client: the script that the key host is given before it, and what is asked for. -/
structure ProvisioningCall where
  script : HostScript
  request : ProvisioningRequest

def ProvisioningCall.entry (url : String) (call : ProvisioningCall) : String × Json :=
  (url, .object call.request.members)

def ProvisioningCall.outcome (call : ProvisioningCall) : Except Error ProvisioningResponse :=
  call.script.answer.bind ProvisioningResponse.ofBytes

/-- Calls of one client to one scripted key host, one after the other: what each ends in, and the
state they leave. -/
def provisionAll (ch : Channel σ) (url : String) :
    List ProvisioningCall → σ × ScriptedHost →
      List (Except Error ProvisioningResponse) × (σ × ScriptedHost)
  | [], s => ([], s)
  | call :: later, (s, h) =>
    let out : Outcome Empty _ _ := (Session.requestProvisioning url call.request).run
      (.of ch .scripted) (s, h.setScript call.script)
    let rest := provisionAll ch url later out.state
    (out.value :: rest.1, rest.2)

/-- One call is recorded, whatever becomes of it. -/
theorem provisionAll_cons (ch : Channel σ) (url : String) (call : ProvisioningCall)
    (later : List ProvisioningCall) (s : σ) (h : ScriptedHost) :
    provisionAll ch url (call :: later) (s, h) =
      let rest := provisionAll ch url later (s, ⟨call.script, h.requests ++ [call.entry url]⟩)
      (call.outcome :: rest.1, rest.2) := by
  have hpost : (Surroundings.of ch .scripted).post url call.request.body
      (s, h.setScript call.script) =
        (call.script.answer, (s, ⟨call.script, h.requests ++ [call.entry url]⟩)) := by
    simp only [Surroundings.of, KeyHost.post_scripted]
    rfl
  rw [provisionAll, Session.run_requestProvisioning, hpost]
  rfl

/-- Calls are recorded in their order, one entry for each. -/
theorem provisionAll_eq (ch : Channel σ) (url : String) (calls : List ProvisioningCall) (s : σ)
    (h : ScriptedHost) :
    let all := provisionAll ch url calls (s, h)
    all.1 = calls.map ProvisioningCall.outcome ∧ all.2.1 = s ∧
      all.2.2.requests = h.requests ++ calls.map (ProvisioningCall.entry url) := by
  induction calls generalizing h with
  | nil => exact ⟨rfl, rfl, (List.append_nil _).symm⟩
  | cons call later ih =>
    obtain ⟨hresults, hstate, hrequests⟩ := ih ⟨call.script, h.requests ++ [call.entry url]⟩
    rw [provisionAll_cons]
    refine ⟨congrArg _ hresults, hstate, ?_⟩
    dsimp only
    rw [hrequests, List.append_assoc, List.singleton_append, List.map_cons]

/-- Requests survive the wire. A request made of four texts is posted as one text; that is read back
as the request, whose index is `1`, and as an object of just the four texts and the index, and no
other request has the same text. Whatever calls a client makes to the scripted key host, and
whatever script is set before each of them, one entry is added for each call, in their order, with
that object of its request, also if the call fails. -/
theorem ProvisioningRequest.round_trip (w : Surroundings σ) (s : σ)
    (url prodSignCert terminalCert tempLoadCert suggestedIksn : String) :
    let r := ofFiles prodSignCert terminalCert tempLoadCert suggestedIksn
    let out : Outcome ε _ _ := (Session.requestProvisioning url r).run w s
    commandsOf out.steps = [] ∧ postsOf out.steps = [(url, r.body)] ∧
      parse? r.body = some r ∧ r.keyHostIndex = "1" ∧
      Json.parse? r.body = some (.object [
        ("prodSignCert", .string prodSignCert),
        ("terminalCert", .string terminalCert),
        ("tempLoadCert", .string tempLoadCert),
        ("suggestedIKSN", .string suggestedIksn),
        ("keyHostIndex", .string "1")]) ∧
      (∀ r' : ProvisioningRequest, r'.body = r.body ↔ r' = r) ∧
      ∀ (ch : Channel τ) (t : τ) (h : ScriptedHost) (calls : List ProvisioningCall),
        let all := provisionAll ch url calls (t, h)
        all.1 = calls.map (fun call => call.script.answer.bind ProvisioningResponse.ofBytes) ∧
          all.2.1 = t ∧
          all.2.2.requests =
            h.requests ++ calls.map fun call => (url, .object call.request.members) := by
  intro r out
  have hout : out = _ := Session.run_requestProvisioning w s url r
  rw [hout]
  exact ⟨rfl, rfl, r.parse?_body, rfl, r.jsonParse?_body, fun _ => body_inj,
    fun ch t h calls => provisionAll_eq ch url calls t h⟩

end KeyInjection
