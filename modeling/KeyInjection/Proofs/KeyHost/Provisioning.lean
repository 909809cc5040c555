-- SUMMARY: Which answers of a key host are taken for key material, and what else they come to.
import KeyInjection.Channel.Script
import KeyInjection.Proofs.Json.Reading
import KeyInjection.Proofs.KeyHost.Requests
import Mathlib.Data.List.Find

/-!
# Provisioning requests

A request for key material is one post. What its answer comes to is told by the grammar of JSON
text and by the last values of the members of an object alone: key material, a refusal, or a
malformed answer (`provisioning_exact`). Neither the layout of the text nor the order of its members
nor any further member shows, in failures as little as in success.
-/

namespace KeyInjection

variable {ε σ η : Type}

namespace ProvisioningResponse

/-! ## Members -/

/-- The members that an answer is judged by. -/
def knownNames : List String := "result" :: fieldNames

/-- The last values of the seven fields are the texts of the response. -/
def HasFields (r : ProvisioningResponse) (members : List (String × Json)) : Prop :=
  Json.lastMember? members "hsmCert" = some (.string r.hsmCert) ∧
    Json.lastMember? members "kbpk" = some (.string r.kbpk) ∧
    Json.lastMember? members "kbpkSig" = some (.string r.kbpkSig) ∧
    Json.lastMember? members "sredTr31" = some (.string r.sredTr31) ∧
    Json.lastMember? members "sredIksn" = some (.string r.sredIksn) ∧
    Json.lastMember? members "pinTr31" = some (.string r.pinTr31) ∧
    Json.lastMember? members "pinIksn" = some (.string r.pinIksn)

/-- The last value of a member is the given text. -/
theorem text?_eq_some_iff {members : List (String × Json)} {name text : String} :
    text? members name = some text ↔ Json.lastMember? members name = some (.string text) := by
  unfold text?
  split
  case h_1 s heq => simp [heq]
  case h_2 hnot =>
    constructor
    · nofun
    · intro heq
      exact absurd heq (hnot text)

theorem fields?_eq_some_iff {members : List (String × Json)} {r : ProvisioningResponse} :
    fields? members = some r ↔ r.HasFields members := by
  simp only [HasFields, ← text?_eq_some_iff, fields?, Option.bind_eq_bind, Option.bind_eq_some_iff]
  constructor
  · rintro ⟨_, h, _, h', _, h'', _, h''', _, h4, _, h5, _, h6, hr⟩
    cases hr
    exact ⟨h, h', h'', h''', h4, h5, h6⟩
  · rintro ⟨h, h', h'', h''', h4, h5, h6⟩
    exact ⟨_, h, _, h', _, h'', _, h''', _, h4, _, h5, _, h6, rfl⟩

/-- Members in another order, of those with different names, and with more or fewer members that an
answer is not judged by. -/
inductive Rearranged : List (String × Json) → List (String × Json) → Prop where
  | refl (members : List (String × Json)) : Rearranged members members
  | symm {members members' : List (String × Json)} (hfirst : Rearranged members members') :
      Rearranged members' members
  | trans {members members' members'' : List (String × Json)} (hfirst : Rearranged members members')
      (hsecond : Rearranged members' members'') : Rearranged members members''
  | swap (before after : List (String × Json)) {x y : String × Json} (hnames : x.1 ≠ y.1) :
      Rearranged (before ++ x :: y :: after) (before ++ y :: x :: after)
  | extra (before after : List (String × Json)) {x : String × Json} (hname : x.1 ∉ knownNames) :
      Rearranged (before ++ after) (before ++ x :: after)

/-- Of members with different names the order does not matter. -/
theorem lookup_swap {name : String} {x y : String × Json} (hnames : x.1 ≠ y.1)
    (rest : List (String × Json)) :
    (y :: x :: rest).lookup name = (x :: y :: rest).lookup name := by
  obtain ⟨x, v⟩ := x
  obtain ⟨y, w⟩ := y
  by_cases hx : name = x
  · have hy : (name == y) = false := beq_false_of_ne (hx ▸ hnames)
    simp only [List.lookup_cons, hy]
  · have hx : (name == x) = false := beq_false_of_ne hx
    simp only [List.lookup_cons, hx]

/-- The known members keep their last values. -/
theorem Rearranged.lastMember?_eq {members members' : List (String × Json)}
    (hrearranged : Rearranged members members') {name : String} (hknown : name ∈ knownNames) :
    Json.lastMember? members name = Json.lastMember? members' name := by
  induction hrearranged with
  | refl => rfl
  | symm _ ih => exact ih.symm
  | trans _ _ ih ih' => exact ih.trans ih'
  | @swap before after x y hnames =>
    simp only [Json.lastMember?, List.reverse_append, List.reverse_cons, List.append_assoc,
      List.singleton_append, List.lookup_append, lookup_swap hnames]
  | @extra before after x hname =>
    obtain ⟨x, v⟩ := x
    have hx : (name == x) = false := beq_false_of_ne fun hx => hname (hx ▸ hknown)
    simp only [Json.lastMember?, List.reverse_append, List.reverse_cons, List.append_assoc,
      List.singleton_append, List.lookup_append, List.lookup_cons, hx]

/-! ## Judgements -/

theorem ofJson_eq_ok_iff {v : Json} {r : ProvisioningResponse} :
    ofJson v = .ok r ↔ ∃ members, v = .object members ∧
      Json.lastMember? members "result" = some (.string "Success") ∧ r.HasFields members := by
  constructor
  · intro hjudged
    unfold ofJson at hjudged
    split at hjudged
    case h_2 => cases hjudged
    case h_1 members =>
      split at hjudged
      case h_1 => cases hjudged
      case h_3 => cases hjudged
      case h_2 result hresult =>
        split at hjudged
        case isFalse => cases hjudged
        case isTrue hsuccess =>
          subst hsuccess
          split at hjudged
          case h_2 => cases hjudged
          case h_1 hfields =>
            cases hjudged
            exact ⟨members, rfl, hresult, fields?_eq_some_iff.1 hfields⟩
  · rintro ⟨members, rfl, hresult, hfields⟩
    simp [ofJson, hresult, successResult, fields?_eq_some_iff.2 hfields]

theorem ofJson_eq_rejected_iff {v : Json} {why : String} :
    ofJson v = .error (.hostRejected why) ↔ ∃ members, v = .object members ∧
      Json.lastMember? members "result" = some (.string why) ∧ why ≠ "Success" := by
  constructor
  · intro hjudged
    unfold ofJson at hjudged
    split at hjudged
    case h_2 => cases hjudged
    case h_1 members =>
      split at hjudged
      case h_1 => cases hjudged
      case h_3 => cases hjudged
      case h_2 result hresult =>
        split at hjudged
        case isTrue => split at hjudged <;> cases hjudged
        case isFalse hrefused =>
          cases hjudged
          exact ⟨members, rfl, hresult, hrefused⟩
  · rintro ⟨members, rfl, hresult, hrefused⟩
    simp [ofJson, hresult, successResult, hrefused]

/-- All other values are malformed answers. -/
theorem ofJson_cases (v : Json) :
    (∃ r, ofJson v = .ok r) ∨ (∃ why, ofJson v = .error (.hostRejected why)) ∨
      ∃ detail, ofJson v = .error (.hostResponseMalformed detail) := by
  unfold ofJson
  split
  case h_2 => exact .inr (.inr ⟨_, rfl⟩)
  case h_1 =>
    split
    case h_1 => exact .inr (.inr ⟨_, rfl⟩)
    case h_3 => exact .inr (.inr ⟨_, rfl⟩)
    case h_2 result _ =>
      split
      case isFalse => exact .inr (.inl ⟨result, rfl⟩)
      case isTrue =>
        split
        case h_1 r _ => exact .inl ⟨r, rfl⟩
        case h_2 => exact .inr (.inr ⟨_, rfl⟩)

theorem findSome?_congr {α β : Type} {f g : α → Option β} {as : List α}
    (hsame : ∀ a ∈ as, f a = g a) : as.findSome? f = as.findSome? g := by
  induction as with
  | nil => rfl
  | cons a as ih =>
    rw [List.findSome?_cons, List.findSome?_cons, hsame a List.mem_cons_self,
      ih fun a ha => hsame a (List.mem_cons_of_mem _ ha)]

/-- An object is judged by the last values of the known members. -/
theorem ofJson_congr {members members' : List (String × Json)}
    (hsame : ∀ name ∈ knownNames, Json.lastMember? members name = Json.lastMember? members' name) :
    ofJson (.object members) = ofJson (.object members') := by
  have hresult := hsame "result" List.mem_cons_self
  have htext : ∀ name ∈ fieldNames, text? members name = text? members' name := by
    intro name hname
    rw [text?, text?, hsame name (List.mem_cons_of_mem _ hname)]
  have htype : ∀ name ∈ sortedFieldNames, wrongType? members name = wrongType? members' name := by
    intro name hname
    have hknown : ∀ name ∈ sortedFieldNames, name ∈ knownNames := by decide
    rw [wrongType?, wrongType?, hsame name (hknown name hname)]
  have hfields : fields? members = fields? members' := by
    simp only [fields?, htext "hsmCert" (by decide), htext "kbpk" (by decide),
      htext "kbpkSig" (by decide), htext "sredTr31" (by decide), htext "sredIksn" (by decide),
      htext "pinTr31" (by decide), htext "pinIksn" (by decide)]
  have hfault : fieldFault members = fieldFault members' := by
    have hmissing : fieldNames.find? (fun name => (text? members name).isNone) =
        fieldNames.find? fun name => (text? members' name).isNone :=
      List.find?_congr fun name hname => by rw [htext name hname]
    rw [fieldFault, fieldFault, findSome?_congr htype, hmissing]
  rw [ofJson, ofJson, hresult, hfields, hfault]

/-! ## Answers -/

/-- The bytes are the UTF-8 form of a JSON text of the object. -/
def IsObjectText (members : List (String × Json)) (b : Bytes) : Prop :=
  ∃ text, b = textBytes text ∧ Json.IsText (.object members) text

theorem ofBytes_of_isObjectText {members : List (String × Json)} {b : Bytes}
    (hobject : IsObjectText members b) : ofBytes b = ofJson (.object members) := by
  obtain ⟨text, rfl, htext⟩ := hobject
  rw [ofBytes, Bytes.text?_textBytes]
  dsimp only
  rw [parse, Json.parse?_eq_some_iff.2 htext]

/-- Bytes are judged as the value that they are a text of, and are malformed if there is none. -/
theorem ofBytes_cases (b : Bytes) :
    (∃ v text, b = textBytes text ∧ Json.IsText v text ∧ ofBytes b = ofJson v) ∨
      ∃ detail, ofBytes b = .error (.hostResponseMalformed detail) := by
  unfold ofBytes
  split
  case h_2 => exact .inr ⟨_, rfl⟩
  case h_1 text htext =>
    unfold parse
    split
    case h_2 => exact .inr ⟨_, rfl⟩
    case h_1 v hparse =>
      exact .inl ⟨v, text, Bytes.text?_eq_some_iff.1 htext, Json.parse?_eq_some_iff.1 hparse, rfl⟩

/-- Judgements other than a malformed answer are about an object. -/
theorem ofBytes_eq_iff {b : Bytes} {result : Except Error ProvisioningResponse}
    {P : List (String × Json) → Prop}
    (hresult : ∀ detail, result ≠ .error (.hostResponseMalformed detail))
    (hjudged : ∀ {v}, ofJson v = result ↔ ∃ members, v = .object members ∧ P members) :
    ofBytes b = result ↔ ∃ members, IsObjectText members b ∧ P members := by
  constructor
  · intro hb
    rcases ofBytes_cases b with ⟨v, text, rfl, htext, hsame⟩ | ⟨detail, hmalformed⟩
    · obtain ⟨members, rfl, hmembers⟩ := hjudged.1 (hsame.symm.trans hb)
      exact ⟨members, ⟨text, rfl, htext⟩, hmembers⟩
    · exact absurd (hb.symm.trans hmalformed) (hresult detail)
  · rintro ⟨members, hobject, hmembers⟩
    rw [ofBytes_of_isObjectText hobject]
    exact hjudged.2 ⟨members, rfl, hmembers⟩

end ProvisioningResponse

/-! ## Requests -/

open ProvisioningResponse in
/-- A request for key material posts once and exchanges nothing. It fails as the post does. An
answer is key material if it is the UTF-8 form of a JSON text of an object whose last result is
Success and whose seven fields are texts, and a refusal if the last result is another text;
otherwise it is malformed. Of two answers that are objects, what comes of them is the same, failures
included, if the known members have the same last values, if the members are rearranged, or if the
same tokens are laid out with other blanks. -/
theorem provisioning_exact (ch : Channel σ) (h : KeyHost η) (s : σ) (k : η) (url : String)
    (r : ProvisioningRequest) :
    let out : Outcome ε _ _ := (Session.requestProvisioning url r).run
      (.of ch.recording h.recording) ((s, []), (k, []))
    let posted := h.post url r.body k
    out.steps = [.posted url r.body posted.1] ∧
      out.state = ((s, []), (posted.2, [(url, r.body)])) ∧
      (∀ e, posted.1 = .error e → out.value = .error e) ∧
      ∀ b, posted.1 = .ok b →
        (∀ response, out.value = .ok response ↔ ∃ members, IsObjectText members b ∧
          Json.lastMember? members "result" = some (.string "Success") ∧
          response.HasFields members) ∧
        (∀ why, out.value = .error (.hostRejected why) ↔ ∃ members, IsObjectText members b ∧
          Json.lastMember? members "result" = some (.string why) ∧ why ≠ "Success") ∧
        ((∃ response, out.value = .ok response) ∨
          (∃ why, out.value = .error (.hostRejected why)) ∨
          ∃ detail, out.value = .error (.hostResponseMalformed detail)) ∧
        ∀ (h' : KeyHost η) (k' : η) (url' : String) (r' : ProvisioningRequest) (b' : Bytes),
          (h'.post url' r'.body k').1 = .ok b' →
          let out' : Outcome ε _ _ := (Session.requestProvisioning url' r').run
            (.of ch.recording h'.recording) ((s, []), (k', []))
          (∀ members members', IsObjectText members b → IsObjectText members' b' →
            (∀ name ∈ knownNames,
              Json.lastMember? members name = Json.lastMember? members' name) ∨
              Rearranged members members' → out'.value = out.value) ∧
          ∀ members tokens text text', b = textBytes text → b' = textBytes text' →
            Json.Phrase Json.maxDepth (.value (.object members)) tokens →
            Json.IsLaidOut tokens text → Json.IsLaidOut tokens text' → out'.value = out.value := by
  intro out posted
  have hout : out = _ := Session.run_requestProvisioning _ _ url r
  refine ⟨congrArg Outcome.steps hout, congrArg Outcome.state hout, ?_, ?_⟩
  · intro e he
    rw [hout]
    show posted.1.bind _ = _
    rw [he]
    rfl
  · intro b hb
    have hvalue : out.value = ofBytes b := by
      rw [hout]
      show posted.1.bind _ = _
      rw [hb]
      rfl
    rw [hvalue]
    refine ⟨fun _ => ofBytes_eq_iff nofun ofJson_eq_ok_iff,
      fun _ => ofBytes_eq_iff nofun ofJson_eq_rejected_iff, ?_, ?_⟩
    · rcases ofBytes_cases b with ⟨v, _, -, -, hsame⟩ | hmalformed
      · rw [hsame]
        exact ofJson_cases v
      · exact .inr (.inr hmalformed)
    · intro h' k' url' r' b' hb' out'
      have hvalue' : out'.value = ofBytes b' := by
        have hout' : out' = _ := Session.run_requestProvisioning _ _ url' r'
        rw [hout']
        show (h'.post url' r'.body k').1.bind _ = _
        rw [hb']
        rfl
      rw [hvalue']
      constructor
      · intro members members' hobject hobject' hsame
        have hknown : ∀ name ∈ knownNames,
            Json.lastMember? members name = Json.lastMember? members' name := by
          rcases hsame with hsame | hrearranged
          · exact hsame
          · exact fun name hname => hrearranged.lastMember?_eq hname
        rw [ofBytes_of_isObjectText hobject, ofBytes_of_isObjectText hobject', ofJson_congr hknown]
      · rintro members tokens text text' rfl rfl hphrase hlaid hlaid'
        rw [ofBytes_of_isObjectText ⟨text, rfl, tokens, hphrase, hlaid⟩,
          ofBytes_of_isObjectText ⟨text', rfl, tokens, hphrase, hlaid'⟩]

open ProvisioningResponse in
/-- Two answers with the same key material, one of them with two members exchanged and one more
between them. -/
theorem provisioning_exact_rearranged :
    let fields := [("kbpkSig", "ab"), ("sredTr31", "B0096"), ("sredIksn", "FFFF"),
      ("pinTr31", "B0097"), ("pinIksn", "FFFE"), ("result", "Success")]
    let members := ("hsmCert", "cert") :: ("kbpk", "00ff") :: fields
    let members' := ("kbpk", "00ff") :: ("note", "new") :: ("hsmCert", "cert") :: fields
    let answering (members : List (String × String)) : KeyHost Unit :=
      ⟨fun _ _ k => (.ok (textBytes (Json.objectText members)), k)⟩
    let r : ProvisioningRequest := .ofFiles "prod" "terminal" "load" "FFFF"
    let out (h : KeyHost Unit) : Outcome Unit _ _ := (Session.requestProvisioning "host" r).run
      (.of Channel.scripted.recording h.recording) (({ entries := [] }, []), ((), []))
    Rearranged (Json.stringMembers members) (Json.stringMembers members') ∧
      (out (answering members)).value =
        .ok ⟨"cert", "00ff", "ab", "B0096", "FFFF", "B0097", "FFFE"⟩ ∧
      (out (answering members')).value = (out (answering members)).value := by
  intro fields members members' answering r out
  have hobject (members : List (String × String)) :
      IsObjectText (Json.stringMembers members) (textBytes (Json.objectText members)) :=
    ⟨_, rfl, Json.parse?_eq_some_iff.1 (Json.parse?_objectText members)⟩
  have hrearranged : Rearranged (Json.stringMembers members) (Json.stringMembers members') :=
    .trans (.swap [] (Json.stringMembers fields) (by decide))
      (.extra [("kbpk", .string "00ff")] (("hsmCert", .string "cert") :: Json.stringMembers fields)
        (x := ("note", .string "new")) (by decide))
  obtain ⟨-, -, -, hanswer⟩ := provisioning_exact (ε := Unit) .scripted (answering members)
    { entries := [] } () "host" r
  obtain ⟨haccepted, -, -, hsame⟩ := hanswer _ rfl
  obtain ⟨hknown, -⟩ := hsame (answering members') () "host" r _ rfl
  refine ⟨hrearranged, (haccepted _).2 ⟨_, hobject members, rfl, ?_⟩,
    hknown _ _ (hobject members) (hobject members') (.inr hrearranged)⟩
  exact ⟨rfl, rfl, rfl, rfl, rfl, rfl, rfl⟩

end KeyInjection
