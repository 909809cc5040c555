-- SUMMARY: What a download does with a terminal that answers as it likes.
import KeyInjection.Channel.Script
import KeyInjection.Proofs.Apdu.RoundTrip
import KeyInjection.Proofs.Session.Runs
import KeyInjection.Proofs.Transfer.Transcript
import Mathlib.Data.List.Chain

/-!
# Downloads from any terminal

The terminal decides how many bytes each reply has, so a download has to find its way through the
file: `ReadsThrough` says which reads it makes and what they end in. Every read asks for bytes
within the file and starts where the accepted part of the reply before it ended; each brings at
least one byte or is the last, so there are no more reads than bytes.
-/

namespace KeyInjection.Transfer

open Device

variable {ε σ η : Type}

/-! ## Reads and their replies -/

/-- A read that was submitted, and what it was answered. -/
structure AnsweredRead where
  request : ReadRequest
  answer : Except Error Response

namespace AnsweredRead

def command (x : AnsweredRead) : Command := ⟨(Request.fileRead x.request).header, x.request.bytes⟩

def step (i : Interface) (x : AnsweredRead) : Step ε := .exchanged i x.command x.answer

/-- The bytes that were sent in reply. -/
def body (x : AnsweredRead) : Bytes :=
  match x.answer with
  | .ok r => r.body
  | .error _ => []

/-- What is kept of them: no more than was asked for. -/
def part (x : AnsweredRead) : Bytes := x.body.take x.request.length.toNat

/-- The reply tells success and is not empty. -/
def Succeeds (x : AnsweredRead) : Prop :=
  ∃ r, x.answer = .ok r ∧ r.status.isSuccess = true ∧ r.body ≠ []

/-- What a download fails with if this read does not succeed. -/
def failure (x : AnsweredRead) : Error :=
  match x.answer with
  | .ok _ => .transferFailed x.request.offset.toNat
  | .error e => e

end AnsweredRead

/-- The reads of a file of `total` bytes from an offset on, of at most `chunk` bytes each, and what
they end in. -/
structure ReadsThrough (chunk total offset : Nat) (reads : List AnsweredRead)
    (result : Except Error Bytes) : Prop where
  total_eq : ∀ x ∈ reads, x.request.total.toNat = total
  length_eq : ∀ x ∈ reads, x.request.length.toNat = min chunk (total - x.request.offset.toNat)
  length_pos : ∀ x ∈ reads, 1 ≤ x.request.length.toNat
  inside : ∀ x ∈ reads, x.request.offset.toNat + x.request.length.toNat ≤ total
  starts : ∀ x ∈ reads.head?, x.request.offset.toNat = offset
  follows : reads.IsChain fun x y =>
    y.request.offset.toNat =
      x.request.offset.toNat + min x.request.length.toNat x.body.length
  count_le : offset + reads.length ≤ total
  ok_iff : ∀ b, result = .ok b ↔ (∀ x ∈ reads, x.Succeeds) ∧ b = reads.flatMap (·.part)
  whole : ∀ b, result = .ok b → offset + b.length = total
  fails : ∀ before x after, reads = before ++ x :: after → ¬ x.Succeeds →
    after = [] ∧ result = .error x.failure

namespace ReadsThrough

variable {chunk total offset : Nat} {x : AnsweredRead} {reads : List AnsweredRead}
  {result : Except Error Bytes}

theorem done : ReadsThrough chunk total total [] (.ok []) where
  total_eq := nofun
  length_eq := nofun
  length_pos := nofun
  inside := nofun
  starts := nofun
  follows := .nil
  count_le := Nat.le_refl _
  ok_iff b := by simp [eq_comm]
  whole b hb := by cases hb; rfl
  fails before x after heq := by simp at heq

/-- A read that does not succeed is the last. -/
theorem single (hchunk : 0 < chunk) (hmore : offset < total)
    (hread : IsRead chunk total offset x.request)
    (hfails : ¬ x.Succeeds) : ReadsThrough chunk total offset [x] (.error x.failure) where
  total_eq := List.forall_mem_singleton.2 hread.total_eq
  length_eq := List.forall_mem_singleton.2 (by rw [hread.offset_eq, hread.length_eq])
  length_pos := List.forall_mem_singleton.2 (by rw [hread.length_eq]; omega)
  inside := List.forall_mem_singleton.2 (by rw [hread.offset_eq, hread.length_eq]; omega)
  starts y hy := by
    cases hy
    exact hread.offset_eq
  follows := .singleton x
  count_le := hmore
  ok_iff b := by
    constructor
    · nofun
    · rintro ⟨hall, -⟩
      exact absurd (hall x (List.mem_singleton_self x)) hfails
  whole b hb := by cases hb
  fails before y after heq _ := by
    cases before with
    | nil =>
      cases heq
      exact ⟨rfl, rfl⟩
    | cons _ before => simp at heq

/-- A read that succeeds is followed by those from the end of the part that it brought. -/
theorem cons (hchunk : 0 < chunk) (hmore : offset < total)
    (hread : IsRead chunk total offset x.request) (hsucceeds : x.Succeeds)
    (hrest : ReadsThrough chunk total (offset + x.part.length) reads result) :
    ReadsThrough chunk total offset (x :: reads) (result.map (x.part ++ ·)) where
  total_eq := List.forall_mem_cons.2 ⟨hread.total_eq, hrest.total_eq⟩
  length_eq := List.forall_mem_cons.2
    ⟨by rw [hread.offset_eq, hread.length_eq], hrest.length_eq⟩
  length_pos := List.forall_mem_cons.2 ⟨by rw [hread.length_eq]; omega, hrest.length_pos⟩
  inside := List.forall_mem_cons.2
    ⟨by rw [hread.offset_eq, hread.length_eq]; omega, hrest.inside⟩
  starts y hy := by
    cases hy
    exact hread.offset_eq
  follows := hrest.follows.cons fun y hy => by
    rw [hrest.starts y hy, hread.offset_eq, AnsweredRead.part, List.length_take]
  count_le := by
    have hpart : 0 < x.part.length := by
      obtain ⟨r, hr, -, hbody⟩ := hsucceeds
      have hsome : 0 < x.body.length := by
        rw [AnsweredRead.body, hr]
        exact List.length_pos_iff.2 hbody
      rw [AnsweredRead.part, List.length_take, hread.length_eq]
      omega
    have := hrest.count_le
    rw [List.length_cons]
    omega
  ok_iff b := by
    cases result with
    | error e =>
      have hnot : ¬ ∀ y ∈ reads, y.Succeeds := fun hall =>
        nomatch (hrest.ok_iff _).2 ⟨hall, rfl⟩
      constructor
      · nofun
      · rintro ⟨hall, -⟩
        exact absurd (fun y hy => hall y (List.mem_cons_of_mem _ hy)) hnot
    | ok later =>
      obtain ⟨hall, rfl⟩ := (hrest.ok_iff later).1 rfl
      constructor
      · intro hb
        cases hb
        exact ⟨List.forall_mem_cons.2 ⟨hsucceeds, hall⟩, rfl⟩
      · rintro ⟨-, rfl⟩
        rfl
  whole b hb := by
    cases result with
    | error e => cases hb
    | ok later =>
      cases hb
      have := hrest.whole later rfl
      rw [List.length_append]
      omega
  fails before y after heq hfails := by
    cases before with
    | nil =>
      cases heq
      exact absurd hsucceeds hfails
    | cons _ before =>
      obtain ⟨rfl, rfl⟩ := List.cons.inj heq
      obtain ⟨hafter, rfl⟩ := hrest.fails before y after rfl hfails
      exact ⟨hafter, rfl⟩

end ReadsThrough

/-- The exchange of a read is in the record with what it was answered. -/
theorem exists_answeredRead {i : Interface} {r : ReadRequest} {talk : List (Step ε)}
    {answer : Except Error Response} (hask : Asks i (.fileRead r) talk answer) :
    talk = [AnsweredRead.step i ⟨r, answer⟩] := by
  cases hask with
  | unsent hcode => cases hcode
  | sent hcode =>
    cases hcode
    rfl

/-- The reads of a dialogue go through the file. -/
theorem Reads.readsThrough {i : Interface} {chunk total offset : Nat} {talk : List (Step ε)}
    {result : Except Error (List Bytes)} (hchunk : 0 < chunk)
    (hreads : Reads i chunk total offset talk result) :
    ∃ reads, talk = reads.map (AnsweredRead.step i) ∧
      ReadsThrough chunk total offset reads (result.map List.flatten) := by
  induction hreads with
  | done => exact ⟨[], rfl, .done⟩
  | @failed _ r _ e hmore hread hask =>
    have hfails : ¬ AnsweredRead.Succeeds ⟨r, .error e⟩ := by
      rintro ⟨_, hr, -⟩
      cases hr
    exact ⟨[⟨r, .error e⟩], exists_answeredRead hask, .single hchunk hmore hread hfails⟩
  | @refused _ r _ answer hmore hread hask hrefused =>
    have hfails : ¬ AnsweredRead.Succeeds ⟨r, .ok answer⟩ := by
      rintro ⟨_, hr, hstatus, hbody⟩
      cases hr
      rcases hrefused with hrefused | hempty
      · rw [hrefused] at hstatus
        cases hstatus
      · exact hbody hempty
    have hsingle := ReadsThrough.single hchunk hmore hread hfails
    simp only [AnsweredRead.failure, hread.offset_eq] at hsingle
    exact ⟨[⟨r, .ok answer⟩], exists_answeredRead hask, hsingle⟩
  | @read _ r _ _ answer piece result hmore hread hask hstatus hpiece hsome _ ih =>
    obtain ⟨reads, rfl, hrest⟩ := ih
    have hpart : AnsweredRead.part ⟨r, .ok answer⟩ = piece := by
      rw [hpiece, ← hread.length_eq]
      rfl
    have hbody : answer.body ≠ [] := by
      rintro hempty
      rw [hempty, List.take_nil] at hpiece
      exact hsome hpiece
    rw [← hpart] at hrest
    refine ⟨⟨r, .ok answer⟩ :: reads, by rw [exists_answeredRead hask]; rfl, ?_⟩
    have hcons := hrest.cons hchunk hmore hread ⟨answer, rfl, hstatus, hbody⟩
    rw [hpart] at hcons
    cases result <;> exact hcons

/-! ## Selections -/

/-- What the answer to a selection tells: the size of the file, or what the operation fails with. -/
def sizeTold (refusal : Error) : Except Error Response → Except Error Nat
  | .error e => .error e
  | .ok r =>
    if r.status.isSuccess then
      match SelectReply.decode r.body with
      | .error e => .error (.apdu e)
      | .ok (reply, _) =>
        if reply.size.toInt < 0 then .error refusal else .ok reply.size.toInt.toNat
    else .error refusal

theorem Selects.sizeTold {i : Interface} {r : SelectRequest} {c : Command} {refusal : Error}
    {talk : List (Step ε)} {result : Except Error Nat}
    (hcode : (Request.fileSelect r).command = .ok c)
    (hselect : Selects i r refusal talk result) :
    ∃ answer, talk = [.exchanged i c answer] ∧ result = Transfer.sizeTold refusal answer := by
  have hsent : ∀ {answer}, Asks i (.fileSelect r) talk answer → talk = [.exchanged i c answer] := by
    rintro answer (⟨hunsent⟩ | ⟨hsame, _⟩)
    · rw [hcode] at hunsent
      cases hunsent
    · rw [hcode] at hsame
      cases hsame
      rfl
  cases hselect with
  | failed hask => exact ⟨_, hsent hask, rfl⟩
  | refused hask hstatus => exact ⟨_, hsent hask, by simp [Transfer.sizeTold, hstatus]⟩
  | unreadable hask hstatus hbody =>
    exact ⟨_, hsent hask, by simp [Transfer.sizeTold, hstatus, hbody]⟩
  | negative hask hstatus hbody hsize =>
    exact ⟨_, hsent hask, by simp [Transfer.sizeTold, hstatus, hbody, hsize]⟩
  | selected hask hstatus hbody hsize =>
    exact ⟨_, hsent hask, by simp [Transfer.sizeTold, hstatus, hbody, hsize]⟩

/-! ## Downloads -/

/-- A download selects its file and, if the answer tells a size other than zero, reads through the
file. -/
theorem Downloads.readsThrough {i : Interface} {name : String} {c : Command} {chunk : Nat}
    {talk : List (Step ε)} {result : Except Error (List Bytes)} (hchunk : 0 < chunk)
    (hcode : (Request.fileSelect ⟨.read, name⟩).command = .ok c)
    (hdownload : Downloads i name chunk talk result) :
    ∃ answer reads, talk = .exchanged i c answer :: reads.map (AnsweredRead.step i) ∧
      match sizeTold (.fileNotFound name) answer with
      | .error e => reads = [] ∧ result = .error e
      | .ok 0 => reads = [] ∧ result = .error (.emptyFile name)
      | .ok total => ReadsThrough chunk total 0 reads (result.map List.flatten) := by
  cases hdownload with
  | zeroChunk hzero => omega
  | unselected _ hselect =>
    obtain ⟨answer, rfl, htold⟩ := hselect.sizeTold hcode
    exact ⟨answer, [], rfl, by rw [← htold]; exact ⟨rfl, rfl⟩⟩
  | empty _ hselect =>
    obtain ⟨answer, rfl, htold⟩ := hselect.sizeTold hcode
    exact ⟨answer, [], rfl, by rw [← htold]; exact ⟨rfl, rfl⟩⟩
  | @read _ _ total _ _ htotal hselect hreads =>
    obtain ⟨answer, rfl, htold⟩ := hselect.sizeTold hcode
    obtain ⟨reads, rfl, hthrough⟩ := hreads.readsThrough hchunk
    refine ⟨answer, reads, rfl, ?_⟩
    rw [← htold]
    obtain ⟨n, rfl⟩ : ∃ n, total = n + 1 := ⟨total - 1, by omega⟩
    exact hthrough

/-- Whatever the terminal answers, a download first submits the selection of its file, and ends
there unless that is answered with success and a size other than zero. If it is, the download
submits just the reads that lead through the file, with what was answered to each; it brings the
file if all of them succeed, and else fails at the first that does not, which is the last one
submitted. -/
theorem download_from_any (ch : Channel σ) (h : KeyHost η) (s : σ) (k : η) (i : Interface)
    {name : String}
    (hname : 0 < (textBytes name).length ∧ (textBytes name).length ≤ SelectRequest.maxName)
    (options : TransferOptions) (hchunk : 1 ≤ options.maxChunk) (report : Share → ε) :
    let out := (download i name options report).run.run (.of ch.recording h.recording)
      ((s, []), (k, []))
    ∃ (c : Command) (answer : Except Error Response) (reads : List AnsweredRead),
      (Request.fileSelect ⟨.read, name⟩).command = .ok c ∧
      talkOf out.steps = .exchanged i c answer :: reads.map (AnsweredRead.step i) ∧
      out.state.1.2 = (i, c) :: reads.map (fun x => (i, x.command)) ∧
      out.state.2.2 = [] ∧
      (∀ e, answer = .error e → reads = [] ∧ out.value = .error e) ∧
      (∀ r, answer = .ok r → r.status.isSuccess = false →
        reads = [] ∧ out.value = .error (.fileNotFound name)) ∧
      (∀ r, answer = .ok r → r.status.isSuccess = true →
        (∀ e, SelectReply.decode r.body = .error e → reads = [] ∧ out.value = .error (.apdu e)) ∧
        ∀ size n, SelectReply.decode r.body = .ok (⟨size⟩, n) →
          (size.toInt < 0 → reads = [] ∧ out.value = .error (.fileNotFound name)) ∧
          (size.toInt = 0 → reads = [] ∧ out.value = .error (.emptyFile name)) ∧
          ∀ total : Nat, 0 < total → size.toInt = total →
            ReadsThrough options.maxChunk total 0 reads out.value) := by
  intro out
  obtain ⟨c, hcode⟩ := exists_command_fileSelect .read hname
  have hleaves := leaves_run (.of ch.recording h.recording) (download i name options report)
    ((s, []), (k, []))
  obtain ⟨pieces, hdownload, hvalue⟩ := Downloads.of_leaves hleaves
  obtain ⟨answer, reads, htalk, hcases⟩ := hdownload.readsThrough hchunk hcode
  obtain ⟨-, hsent, hposted⟩ := Session.recorded_eq (download i name options report).run ch h s k
  have hvalue : out.value = pieces.map List.flatten := hvalue
  rw [hvalue]
  refine ⟨c, answer, reads, hcode, htalk, ?_, ?_, ?_, ?_, ?_⟩
  · rw [hsent, ← commandsOf_talkOf, htalk]
    exact congrArg ((i, c) :: ·) (commandsOf_map_exchanged ..)
  · rw [hposted, ← postsOf_talkOf, htalk]
    exact postsOf_map_exchanged ..
  · rintro e rfl
    obtain ⟨rfl, rfl⟩ := hcases
    exact ⟨rfl, rfl⟩
  · rintro r rfl hstatus
    simp only [sizeTold, hstatus] at hcases
    obtain ⟨rfl, rfl⟩ := hcases
    exact ⟨rfl, rfl⟩
  · rintro r rfl hstatus
    simp only [sizeTold, hstatus, if_true] at hcases
    refine ⟨?_, ?_⟩
    · intro e hbody
      simp only [hbody] at hcases
      obtain ⟨rfl, rfl⟩ := hcases
      exact ⟨rfl, rfl⟩
    · intro size n hbody
      simp only [hbody] at hcases
      refine ⟨?_, ?_, ?_⟩
      · intro hnegative
        simp only [hnegative, if_true] at hcases
        obtain ⟨rfl, rfl⟩ := hcases
        exact ⟨rfl, rfl⟩
      · intro hzero
        simp only [hzero] at hcases
        obtain ⟨rfl, rfl⟩ := hcases
        exact ⟨rfl, rfl⟩
      · intro total htotal hsize
        obtain ⟨n, rfl⟩ : ∃ n, total = n + 1 := ⟨total - 1, by omega⟩
        rw [hsize, if_neg (by omega)] at hcases
        exact hcases

/-- A file of five bytes, read three at a time from a terminal that answers the first read with one
byte less and the second with two bytes more than was asked for. -/
theorem download_from_any_scripted :
    let told : Response := ⟨.success, [5, 0, 0, 0]⟩
    let entries : List ScriptEntry :=
      [.respond told, .respond ⟨.success, [1, 2]⟩, .respond ⟨.success, [3, 4, 5, 6, 7]⟩]
    let out := (download .primary "file" ⟨3, 0, 0⟩ id).run.run
      (.of Channel.scripted.recording KeyHost.scripted.recording)
      (({ entries }, []), (.ofScript .unreachable, []))
    (0 < (textBytes "file").length ∧ (textBytes "file").length ≤ SelectRequest.maxName) ∧
      ∃ (c : Command) (reads : List AnsweredRead),
        (Request.fileSelect ⟨.read, "file"⟩).command = .ok c ∧
        talkOf out.steps =
          .exchanged .primary c (.ok told) :: reads.map (AnsweredRead.step .primary) ∧
        ReadsThrough 3 5 0 reads out.value := by
  intro told entries out
  have hname : 0 < (textBytes "file").length ∧
      (textBytes "file").length ≤ SelectRequest.maxName := by decide +kernel
  obtain ⟨c, answer, reads, hcode, htalk, -, -, -, -, hsuccess⟩ :=
    download_from_any .scripted .scripted { entries } (.ofScript .unreachable) .primary hname
      ⟨3, 0, 0⟩ (by decide) (id : Share → Share)
  obtain ⟨next, hnext⟩ : ∃ next,
      (download .primary "file" ⟨3, 0, 0⟩ (id : Share → Share)).run =
        .exchange .primary c next := by
    cases hcode
    exact ⟨_, rfl⟩
  obtain rfl : answer = .ok told := by
    rw [hnext, Session.run_exchange] at htalk
    exact (Step.exchanged.inj (List.cons.inj htalk).1).2.2.symm
  obtain ⟨-, hsize⟩ := hsuccess told rfl rfl
  exact ⟨hname, c, reads, hcode, htalk, (hsize 5 4 rfl).2.2 5 (by decide) rfl⟩

end KeyInjection.Transfer
