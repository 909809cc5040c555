-- SUMMARY: What an upload does with a terminal that answers as it likes.
import KeyInjection.Channel.Script
import KeyInjection.Proofs.Apdu.RoundTrip
import KeyInjection.Proofs.Session.Runs
import KeyInjection.Proofs.Transfer.Download
import KeyInjection.Proofs.Transfer.Pieces

/-!
# Uploads to any terminal

The terminal decides how far an upload gets: `WritesThrough` says which writes it makes and what
they end in. They are the pieces of the content from the front, each at the place where the one
before it ended, and the first one that does not succeed is the last.
-/

namespace KeyInjection.Transfer

open Device

variable {ε σ η : Type}

/-! ## Writes and their replies -/

/-- A write that was submitted, and what it was answered. -/
structure AnsweredWrite where
  request : WriteRequest
  answer : Except Error Response

namespace AnsweredWrite

def command (x : AnsweredWrite) : Command :=
  ⟨(Request.fileWrite x.request).header, x.request.bytes⟩

def step (i : Interface) (x : AnsweredWrite) : Step ε := .exchanged i x.command x.answer

/-- The reply tells success. -/
def Succeeds (x : AnsweredWrite) : Prop := ∃ r, x.answer = .ok r ∧ r.status.isSuccess = true

/-- What an upload fails with if this write does not succeed. -/
def failure (x : AnsweredWrite) : Error :=
  match x.answer with
  | .ok _ => .transferFailed x.request.offset.toNat
  | .error e => e

end AnsweredWrite

/-- The bytes that these writes carry, in order. -/
def carried (writes : List AnsweredWrite) : Bytes := writes.flatMap (·.request.data)

/-- The writes of a content after `sent` bytes, and what they end in. -/
structure WritesThrough (options : TransferOptions) (sent : Nat) (content : Bytes)
    (writes : List AnsweredWrite) (result : Except Error Nat) : Prop where
  within : ∀ j x, writes[j]? = some x → j * options.maxChunk < content.length
  data_eq : ∀ j x, writes[j]? = some x →
    x.request.data = (content.drop (j * options.maxChunk)).take options.maxChunk
  delay_eq : ∀ x ∈ writes, x.request.delayMs = options.delayMs
  offset_eq : ∀ before x after, writes = before ++ x :: after →
    x.request.offset.toNat = sent + (carried before).length
  complete : (∀ x ∈ writes, x.Succeeds) →
    writes.length = content.length ⌈/⌉ options.maxChunk ∧ result = .ok (sent + content.length)
  fails : ∀ before x after, writes = before ++ x :: after → ¬ x.Succeeds →
    after = [] ∧ result = .error x.failure

namespace WritesThrough

variable {options : TransferOptions} {sent : Nat} {content : Bytes} {x : AnsweredWrite}
  {writes : List AnsweredWrite} {result : Except Error Nat}

theorem done : WritesThrough options sent [] [] (.ok sent) where
  within := nofun
  data_eq := nofun
  delay_eq := nofun
  offset_eq before x after heq := by simp at heq
  complete _ := ⟨(zero_ceilDiv options.maxChunk).symm, rfl⟩
  fails before x after heq := by simp at heq

/-- A write that does not succeed is the last. -/
theorem single (hmore : content ≠ []) (hwrite : IsWrite options sent content x.request)
    (hfails : ¬ x.Succeeds) : WritesThrough options sent content [x] (.error x.failure) where
  within j y hy := by
    cases j with
    | zero => simpa using List.length_pos_iff.2 hmore
    | succ j => simp at hy
  data_eq j y hy := by
    cases j with
    | zero =>
      cases hy
      simpa using hwrite.data_eq
    | succ j => simp at hy
  delay_eq := List.forall_mem_singleton.2 hwrite.delay_eq
  offset_eq before y after heq := by
    cases before with
    | nil =>
      cases heq
      exact hwrite.offset_eq
    | cons _ before => simp at heq
  complete hall := absurd (hall x (List.mem_singleton_self x)) hfails
  fails before y after heq _ := by
    cases before with
    | nil =>
      cases heq
      exact ⟨rfl, rfl⟩
    | cons _ before => simp at heq

/-- A write that succeeds is followed by those of the rest of the content. -/
theorem cons (hchunk : 0 < options.maxChunk) (hmore : content ≠ [])
    (hwrite : IsWrite options sent content x.request) (hsucceeds : x.Succeeds)
    (hrest : WritesThrough options (sent + x.request.data.length)
      (content.drop options.maxChunk) writes result) :
    WritesThrough options sent content (x :: writes) result where
  within j y hy := by
    cases j with
    | zero => simpa using List.length_pos_iff.2 hmore
    | succ j =>
      have := hrest.within j y hy
      rw [List.length_drop] at this
      rw [Nat.succ_mul]
      omega
  data_eq j y hy := by
    cases j with
    | zero =>
      cases hy
      simpa using hwrite.data_eq
    | succ j =>
      rw [hrest.data_eq j y hy, List.drop_drop, Nat.succ_mul, Nat.add_comm]
  delay_eq := List.forall_mem_cons.2 ⟨hwrite.delay_eq, hrest.delay_eq⟩
  offset_eq before y after heq := by
    cases before with
    | nil =>
      cases heq
      exact hwrite.offset_eq
    | cons _ before =>
      obtain ⟨rfl, rfl⟩ := List.cons.inj heq
      rw [hrest.offset_eq before y after rfl, Nat.add_assoc, ← List.length_append]
      rfl
  complete hall := by
    obtain ⟨-, hlater⟩ := List.forall_mem_cons.1 hall
    obtain ⟨hlength, hresult⟩ := hrest.complete hlater
    constructor
    · rw [List.length_cons, hlength, List.length_drop,
        ceilDiv_of_pos hchunk (List.length_pos_iff.2 hmore)]
    · rw [hresult, hwrite.data_eq, Nat.add_assoc, ← List.length_append, List.take_append_drop]
  fails before y after heq hfails := by
    cases before with
    | nil =>
      cases heq
      exact absurd hsucceeds hfails
    | cons _ before =>
      obtain ⟨rfl, rfl⟩ := List.cons.inj heq
      exact hrest.fails before y after rfl hfails

/-- The writes end well just if there are as many as the content has pieces, and all succeed. -/
theorem ok_iff (hthrough : WritesThrough options sent content writes result) (n : Nat) :
    result = .ok n ↔ writes.length = content.length ⌈/⌉ options.maxChunk ∧
      (∀ x ∈ writes, x.Succeeds) ∧ n = sent + content.length := by
  constructor
  · rintro rfl
    have hall : ∀ x ∈ writes, x.Succeeds := by
      intro x hx
      apply Classical.byContradiction
      intro hfails
      obtain ⟨before, after, heq⟩ := List.append_of_mem hx
      nomatch (hthrough.fails before x after heq hfails).2
    obtain ⟨hlength, hn⟩ := hthrough.complete hall
    exact ⟨hlength, hall, Except.ok.inj hn⟩
  · rintro ⟨-, hall, rfl⟩
    exact (hthrough.complete hall).2

/-- The first of the writes together carry the front of the content. -/
theorem carried_take (hchunk : 0 < options.maxChunk)
    (hthrough : WritesThrough options sent content writes result) {m : Nat}
    (hm : m ≤ writes.length) :
    carried (writes.take m) = content.take (m * options.maxChunk) := by
  have hpieces : (writes.take m).map (·.request.data) =
      (Bytes.pieces options.maxChunk content).take m := by
    refine List.ext_getElem? fun j => ?_
    rw [List.getElem?_map, List.getElem?_take, List.getElem?_take, Bytes.getElem?_pieces hchunk]
    by_cases hj : j < m
    · obtain ⟨x, hx⟩ : ∃ x, writes[j]? = some x :=
        ⟨_, List.getElem?_eq_getElem (Nat.lt_of_lt_of_le hj hm)⟩
      simp [hj, hx, hthrough.within j x hx, hthrough.data_eq j x hx]
    · simp [hj]
  rw [carried, List.flatMap_def, hpieces, Bytes.take_pieces hchunk, Bytes.flatten_pieces hchunk]

theorem carried_eq (hchunk : 0 < options.maxChunk)
    (hthrough : WritesThrough options sent content writes result) :
    carried writes = content.take (writes.length * options.maxChunk) := by
  have hall := hthrough.carried_take hchunk (Nat.le_refl writes.length)
  rwa [List.take_length] at hall

/-- Each write starts after as many full pieces as there are writes before it. -/
theorem offset_eq_add_mul (hchunk : 0 < options.maxChunk)
    (hthrough : WritesThrough options sent content writes result) {j : Nat}
    (hx : writes[j]? = some x) : x.request.offset.toNat = sent + j * options.maxChunk := by
  obtain ⟨hj, rfl⟩ := List.getElem?_eq_some_iff.1 hx
  have hwithin := hthrough.within j _ hx
  have hsplit : writes = writes.take j ++ writes[j] :: writes.drop (j + 1) := by
    rw [← List.drop_eq_getElem_cons hj, List.take_append_drop]
  rw [hthrough.offset_eq _ _ _ hsplit, hthrough.carried_take hchunk (Nat.le_of_lt hj),
    List.length_take_of_le (Nat.le_of_lt hwithin)]

/-- A content that is made of full pieces is written in full pieces. -/
theorem length_data_eq (hthrough : WritesThrough options sent content writes result) {m j : Nat}
    (hfull : content.length = m * options.maxChunk) (hx : writes[j]? = some x) :
    x.request.data.length = options.maxChunk := by
  have hwithin := hthrough.within j x hx
  rw [hfull] at hwithin
  have hnext : (j + 1) * options.maxChunk ≤ m * options.maxChunk :=
    Nat.mul_le_mul_right _ (Nat.lt_of_mul_lt_mul_right hwithin)
  rw [Nat.succ_mul] at hnext
  rw [hthrough.data_eq j x hx, List.length_take, List.length_drop, hfull]
  omega

end WritesThrough

/-- A session whose talk is a selection and writes has submitted their commands, and nothing to the
key host. -/
theorem recorded_of_talk {p : Session ε α} {ch : Channel σ} {h : KeyHost η} {s : σ} {k : η}
    {i : Interface} {c : Command} {answer : Except Error Response} {writes : List AnsweredWrite}
    (htalk : talkOf (p.run (.of ch.recording h.recording) ((s, []), (k, []))).steps =
      .exchanged i c answer :: writes.map (AnsweredWrite.step i)) :
    let out := p.run (.of ch.recording h.recording) ((s, []), (k, []))
    out.state.1.2 = (i, c) :: writes.map (fun x => (i, x.command)) ∧ out.state.2.2 = [] := by
  obtain ⟨-, hsent, hposted⟩ := Session.recorded_eq p ch h s k
  dsimp only
  rw [hsent, hposted, ← commandsOf_talkOf, ← postsOf_talkOf, htalk]
  exact ⟨congrArg ((i, c) :: ·) (commandsOf_map_exchanged ..), postsOf_map_exchanged ..⟩

/-- The exchange of a write is in the record with what it was answered. -/
theorem exists_answeredWrite {i : Interface} {r : WriteRequest} {talk : List (Step ε)}
    {answer : Except Error Response} (hask : Asks i (.fileWrite r) talk answer) :
    talk = [AnsweredWrite.step i ⟨r, answer⟩] := by
  cases hask with
  | unsent hcode => cases hcode
  | sent hcode =>
    cases hcode
    rfl

/-- The writes of a dialogue go through the content, for which there are offsets enough. -/
theorem Writes.writesThrough {i : Interface} {options : TransferOptions} {sent : Nat}
    {content : Bytes} {talk : List (Step ε)} {result : Except Error Nat}
    (hchunk : 0 < options.maxChunk) (hsize : sent + content.length ≤ 0x100000000)
    (hwrites : Writes i options sent content talk result) :
    ∃ writes, talk = writes.map (AnsweredWrite.step i) ∧
      WritesThrough options sent content writes result := by
  induction hwrites with
  | done => exact ⟨[], rfl, .done⟩
  | tooLarge hmore hsent =>
    have := List.length_pos_iff.2 hmore
    omega
  | @failed _ _ r _ e hmore hwrite hask =>
    have hfails : ¬ AnsweredWrite.Succeeds ⟨r, .error e⟩ := by
      rintro ⟨_, hr, -⟩
      cases hr
    exact ⟨[⟨r, .error e⟩], exists_answeredWrite hask, .single hmore hwrite hfails⟩
  | @refused _ _ r _ answer hmore hwrite hask hstatus =>
    have hfails : ¬ AnsweredWrite.Succeeds ⟨r, .ok answer⟩ := by
      rintro ⟨_, hr, hsuccess⟩
      cases hr
      rw [hstatus] at hsuccess
      cases hsuccess
    have hsingle := WritesThrough.single hmore hwrite hfails
    simp only [AnsweredWrite.failure, hwrite.offset_eq] at hsingle
    exact ⟨[⟨r, .ok answer⟩], exists_answeredWrite hask, hsingle⟩
  | @written sent content r _ _ answer _ hmore hwrite hask hstatus _ ih =>
    have hroom : sent + r.data.length + (content.drop options.maxChunk).length ≤ 0x100000000 := by
      rw [hwrite.data_eq, Nat.add_assoc, ← List.length_append, List.take_append_drop]
      exact hsize
    obtain ⟨writes, rfl, hrest⟩ := ih hroom
    refine ⟨⟨r, .ok answer⟩ :: writes, by rw [exists_answeredWrite hask]; rfl, ?_⟩
    exact hrest.cons hchunk hmore hwrite ⟨answer, rfl, hstatus⟩

/-! ## Selections -/

/-- The answer tells that the file was selected, with a size that can be read. -/
def TellsSize (answer : Except Error Response) : Prop :=
  ∃ r reply n, answer = .ok r ∧ r.status.isSuccess = true ∧
    SelectReply.decode r.body = .ok (reply, n) ∧ 0 ≤ reply.size.toInt

theorem tellsSize_iff (refusal : Error) {answer : Except Error Response} :
    TellsSize answer ↔ ∃ size, sizeTold refusal answer = .ok size := by
  constructor
  · rintro ⟨r, reply, n, rfl, hstatus, hbody, hsize⟩
    exact ⟨_, by simp [sizeTold, hstatus, hbody, Int.not_lt.2 hsize]; rfl⟩
  · rintro ⟨size, htold⟩
    unfold sizeTold at htold
    split at htold
    case h_1 => cases htold
    case h_2 r =>
      split at htold
      case isFalse => cases htold
      case isTrue hstatus =>
        split at htold
        case h_1 => cases htold
        case h_2 reply n hbody =>
          split at htold
          case isTrue => cases htold
          case isFalse hsize => exact ⟨r, reply, n, rfl, hstatus, hbody, Int.not_lt.1 hsize⟩

/-- A selection whose request has an encoding is one exchange, and ends in what the answer tells. -/
theorem run_selectForWriting (i : Interface) {name : String} {c : Command}
    (hcode : (Request.fileSelect ⟨.truncate, name⟩).command = .ok c) :
    (selectForWriting i name : Attempt ε Error Unit).run =
      .exchange i c fun answer =>
        .done ((sizeTold (.fileCreateFailed name) answer).map fun _ => ()) := by
  unfold selectForWriting exchange
  rw [hcode]
  refine congrArg (Session.exchange i c) (funext fun answer => ?_)
  cases answer with
  | error e => rfl
  | ok r =>
    simp only [Session.bind, ExceptT.bindCont, sizeTold, readBody]
    cases r.status.isSuccess with
    | false => rfl
    | true =>
      cases SelectReply.decode r.body with
      | error e => rfl
      | ok read =>
        obtain ⟨reply, n⟩ := read
        simp only [Bool.not_true, Bool.false_eq_true, if_false, if_true, pure_bind]
        by_cases hnegative : reply.size.toInt < 0
        · rw [if_pos hnegative, if_pos (Int32.lt_iff_toInt_lt.2 hnegative)]
          rfl
        · rw [if_neg hnegative, if_neg (mt Int32.lt_iff_toInt_lt.1 hnegative)]
          rfl

/-! ## Uploads -/

/-- An upload selects its file and, if the answer tells a size, writes through the content. -/
theorem Uploads.writesThrough {i : Interface} {name : String} {c : Command}
    {options : TransferOptions} {content : Bytes} {talk : List (Step ε)}
    {result : Except Error Nat} (hchunk : 0 < options.maxChunk)
    (hsize : content.length ≤ 0x100000000)
    (hcode : (Request.fileSelect ⟨.truncate, name⟩).command = .ok c)
    (hupload : Uploads i name options content talk result) :
    ∃ answer writes, talk = .exchanged i c answer :: writes.map (AnsweredWrite.step i) ∧
      match sizeTold (.fileCreateFailed name) answer with
      | .error e => writes = [] ∧ result = .error e
      | .ok _ => WritesThrough options 0 content writes result := by
  cases hupload with
  | zeroChunk hzero => omega
  | unselected _ hselect =>
    obtain ⟨answer, rfl, htold⟩ := hselect.sizeTold hcode
    exact ⟨answer, [], rfl, by rw [← htold]; exact ⟨rfl, rfl⟩⟩
  | written _ hselect hwrites =>
    obtain ⟨answer, rfl, htold⟩ := hselect.sizeTold hcode
    obtain ⟨writes, rfl, hthrough⟩ := hwrites.writesThrough hchunk (by omega)
    exact ⟨answer, writes, rfl, by rw [← htold]; exact hthrough⟩

/-- An exchange that fails is what the upload fails with. -/
theorem Uploads.error_of_answer {i : Interface} {name : String} {c : Command}
    {options : TransferOptions} {content : Bytes} {talk : List (Step ε)}
    {result : Except Error Nat} {e : Error} (hchunk : 0 < options.maxChunk)
    (hsize : content.length ≤ 0x100000000)
    (hcode : (Request.fileSelect ⟨.truncate, name⟩).command = .ok c)
    (hupload : Uploads i name options content talk result) (hfailed : .error e ∈ answersOf talk) :
    result = .error e := by
  obtain ⟨answer, writes, rfl, hcases⟩ := hupload.writesThrough hchunk hsize hcode
  have hanswers : answersOf (writes.map (AnsweredWrite.step (ε := ε) i)) = writes.map (·.answer) :=
    answersOf_map_exchanged ..
  rw [answersOf_cons, hanswers] at hfailed
  rcases List.mem_cons.1 hfailed with hselect | hwrite
  · subst hselect
    exact hcases.2
  · obtain ⟨x, hx, hanswer⟩ := List.mem_map.1 hwrite
    obtain ⟨before, after, heq⟩ := List.append_of_mem hx
    have hfails : ¬ x.Succeeds := by
      rintro ⟨r, hr, -⟩
      nomatch hanswer.symm.trans hr
    cases htold : sizeTold (.fileCreateFailed name) answer with
    | error _ =>
      rw [htold] at hcases
      rw [hcases.1] at hx
      cases hx
    | ok _ =>
      rw [htold] at hcases
      rw [(hcases.fails before x after heq hfails).2, AnsweredWrite.failure, hanswer]

/-- Whatever the terminal answers, an upload of a part of a buffer first submits the selection of
its file, and ends there unless that is answered with success and a size. If it is, the upload
submits just the writes that lead through that part, with what was answered to each; it ends in the
number of bytes if there are as many writes as pieces and all of them succeed, and else fails at the
first that does not, which is the last one submitted. -/
theorem upload_to_any (ch : Channel σ) (h : KeyHost η) (s : σ) (k : η) (i : Interface)
    {name : String}
    (hname : 0 < (textBytes name).length ∧ (textBytes name).length ≤ SelectRequest.maxName)
    (data : Bytes) {offset length : Nat} (hrange : offset + length ≤ data.length)
    (hlength : length < 0x100000000) (options : TransferOptions) (hchunk : 1 ≤ options.maxChunk)
    (report : Nat → ε) :
    let out := (uploadRange data offset length i name options report).run.run
      (.of ch.recording h.recording) ((s, []), (k, []))
    ∃ (c : Command) (answer : Except Error Response) (writes : List AnsweredWrite),
      (Request.fileSelect ⟨.truncate, name⟩).command = .ok c ∧
      talkOf out.steps = .exchanged i c answer :: writes.map (AnsweredWrite.step i) ∧
      out.state.1.2 = (i, c) :: writes.map (fun x => (i, x.command)) ∧
      out.state.2.2 = [] ∧
      (∀ e, answer = .error e → writes = [] ∧ out.value = .error e) ∧
      (∀ r, answer = .ok r → r.status.isSuccess = false →
        writes = [] ∧ out.value = .error (.fileCreateFailed name)) ∧
      (∀ r, answer = .ok r → r.status.isSuccess = true →
        (r.body.length < 4 → writes = [] ∧ out.value = .error (.apdu .invalidLength)) ∧
        ∀ size n, SelectReply.decode r.body = .ok (⟨size⟩, n) → size.toInt < 0 →
          writes = [] ∧ out.value = .error (.fileCreateFailed name)) ∧
      (TellsSize answer →
        WritesThrough options 0 ((data.drop offset).take length) writes out.value) ∧
      ∀ n, out.value = .ok n ↔ TellsSize answer ∧
        writes.length = length ⌈/⌉ options.maxChunk ∧ (∀ x ∈ writes, x.Succeeds) ∧
        n = length := by
  intro out
  obtain ⟨c, hcode⟩ := exists_command_fileSelect .truncate hname
  have hcontent : ((data.drop offset).take length).length = length := by
    rw [List.length_take, List.length_drop]
    omega
  have hupload := Uploads.of_leaves_range hrange (leaves_run (.of ch.recording h.recording)
    (uploadRange data offset length i name options report) ((s, []), (k, [])))
  obtain ⟨answer, writes, htalk, hcases⟩ :=
    hupload.writesThrough hchunk (by omega) hcode
  have hcases : match sizeTold (.fileCreateFailed name) answer with
    | .error e => writes = [] ∧ out.value = .error e
    | .ok _ => WritesThrough options 0 ((data.drop offset).take length) writes out.value := hcases
  obtain ⟨hsent, hposted⟩ := recorded_of_talk htalk
  have hfailed : ∀ e, sizeTold (.fileCreateFailed name) answer = .error e →
      writes = [] ∧ out.value = .error e := by
    intro e htold
    rwa [htold] at hcases
  have hthrough : TellsSize answer →
      WritesThrough options 0 ((data.drop offset).take length) writes out.value := by
    intro htells
    obtain ⟨size, htold⟩ := (tellsSize_iff (.fileCreateFailed name)).1 htells
    rwa [htold] at hcases
  refine ⟨c, answer, writes, hcode, htalk, hsent, hposted, ?_, ?_, ?_, hthrough, ?_⟩
  · rintro e rfl
    exact hfailed e rfl
  · rintro r rfl hstatus
    exact hfailed _ (by simp [sizeTold, hstatus])
  · rintro r rfl hstatus
    constructor
    · intro hshort
      exact hfailed _ (by simp [sizeTold, hstatus, SelectReply.decode, hshort])
    · intro size n hbody hnegative
      exact hfailed _ (by simp [sizeTold, hstatus, hbody, hnegative])
  · intro n
    by_cases htells : TellsSize answer
    · rw [(hthrough htells).ok_iff n, hcontent, Nat.zero_add]
      simp [htells]
    · have hnot : ∀ size, sizeTold (.fileCreateFailed name) answer ≠ .ok size := fun size htold =>
        htells ((tellsSize_iff _).2 ⟨size, htold⟩)
      cases htold : sizeTold (.fileCreateFailed name) answer with
      | ok size => exact absurd htold (hnot size)
      | error e =>
        rw [(hfailed e htold).2]
        simp [htells]

/-- Five bytes from the middle of a buffer, written two at a time to a terminal that has no room for
the second two. -/
theorem upload_to_any_scripted :
    let told : Response := ⟨.success, [0, 0, 0, 0]⟩
    let entries : List ScriptEntry :=
      [.respond told, .respond ⟨.success, []⟩, .respond ⟨.notEnoughSpace, []⟩]
    let data : Bytes := [0, 1, 2, 3, 4, 5, 6]
    let out := (uploadRange data 1 5 .primary "file" ⟨2, 0, 7⟩ id).run.run
      (.of Channel.scripted.recording KeyHost.scripted.recording)
      (({ entries }, []), (.ofScript .unreachable, []))
    ((0 < (textBytes "file").length ∧ (textBytes "file").length ≤ SelectRequest.maxName) ∧
      1 + 5 ≤ data.length) ∧
      ∃ (c : Command) (writes : List AnsweredWrite),
        (Request.fileSelect ⟨.truncate, "file"⟩).command = .ok c ∧
        talkOf out.steps =
          .exchanged .primary c (.ok told) :: writes.map (AnsweredWrite.step .primary) ∧
        WritesThrough ⟨2, 0, 7⟩ 0 [1, 2, 3, 4, 5] writes out.value := by
  intro told entries data out
  have hname : 0 < (textBytes "file").length ∧
      (textBytes "file").length ≤ SelectRequest.maxName := by decide +kernel
  have hrange : 1 + 5 ≤ data.length := by decide
  obtain ⟨c, answer, writes, hcode, htalk, -, -, -, -, -, hthrough, -⟩ :=
    upload_to_any .scripted .scripted { entries } (.ofScript .unreachable) .primary hname data
      hrange (by decide) ⟨2, 0, 7⟩ (by decide) (id : Nat → Nat)
  obtain ⟨next, hnext⟩ : ∃ next,
      (uploadRange data 1 5 .primary "file" ⟨2, 0, 7⟩ (id : Nat → Nat)).run =
        .exchange .primary c next := by
    cases hcode
    exact ⟨_, rfl⟩
  obtain rfl : answer = .ok told := by
    rw [hnext, Session.run_exchange] at htalk
    exact (Step.exchanged.inj (List.cons.inj htalk).1).2.2.symm
  have htells : TellsSize (.ok told) := ⟨told, ⟨0⟩, 4, rfl, rfl, rfl, by decide⟩
  exact ⟨⟨hname, hrange⟩, c, writes, hcode, htalk, hthrough htells⟩

end KeyInjection.Transfer
