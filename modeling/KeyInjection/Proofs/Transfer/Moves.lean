-- SUMMARY: A transfer selects its file first, and then does nothing but move it.
import KeyInjection.Proofs.Apdu.RoundTrip
import KeyInjection.Proofs.Device.Operations
import KeyInjection.Proofs.Device.Steps
import KeyInjection.Proofs.Transfer.Dialogue

/-!
# Transfers as moves

Whatever the terminal answers, a transfer takes its steps in one order: the selection of its file,
unless that has no encoding, and then reads of the file, or writes if it was selected for writing,
with reports in between (`MovesFile`). This holds of downloads, of uploads of a buffer and of
uploads from any source.
-/

namespace KeyInjection

variable {ε : Type}

/-! ## Steps of sessions -/

namespace Session

variable {P : Step ε → Prop}

/-- Every step of the session satisfies `P`, whatever its surroundings do. -/
def Takes (P : Step ε → Prop) (p : Session ε α) : Prop :=
  ∀ steps a, Generates p steps a → ∀ step ∈ steps, P step

theorem takes_done (a : α) : Takes P (done a) := by
  intro steps b hgen
  cases hgen
  simp

theorem Takes.bind {p : Session ε α} {k : α → Session ε β} (hp : Takes P p)
    (hk : ∀ a, Takes P (k a)) : Takes P (p >>= k) := by
  intro steps b hgen step hstep
  obtain ⟨first, a, second, rfl, hfirst, hsecond⟩ := generates_bind.1 hgen
  rcases List.mem_append.1 hstep with hstep | hstep
  · exact hp first a hfirst step hstep
  · exact hk a second b hsecond step hstep

/-- What may be published on the way is one more step. -/
theorem Takes.report {c : Prop} [Decidable c] {e : ε} {p : Session ε α} (hevent : P (.published e))
    (hp : Takes P p) : Takes P (if c then Session.emit e >>= fun _ => p else p) := by
  have hemit : Takes P (Session.emit e) := by
    intro steps a hgen
    cases hgen with
    | publish hdone =>
      cases hdone
      simpa using hevent
  split
  · exact hemit.bind fun _ => hp
  · exact hp

end Session

namespace Transfer

open Device

variable {i : Interface} {mode : SelectMode} {name : String} {options : TransferOptions}

/-! ## Moves -/

/-- The step reports something, or reads the selected file, or writes it if it was selected for
writing. -/
def IsMove (i : Interface) (mode : SelectMode) : Step ε → Prop
  | .exchanged j c _ =>
    j = i ∧ ((∃ r, Terminal.readCommand c = .ok (.fileRead r)) ∨
      mode = .truncate ∧ ∃ r, Terminal.readCommand c = .ok (.fileWrite r))
  | .posted .. => False
  | .published _ => True

/-- A file is selected and then moved. -/
inductive MovesFile (i : Interface) (mode : SelectMode) (name : String) :
    List (Step ε) → Prop where
  | nothing : MovesFile i mode name []
  | moved {c : Command} {answer : Except Error Response} {rest : List (Step ε)}
      (hselect : Terminal.readCommand c = .ok (.fileSelect ⟨mode, name⟩))
      (hrest : ∀ step ∈ rest, IsMove i mode step) :
      MovesFile i mode name (.exchanged i c answer :: rest)

theorem MovesFile.postsOf_eq {steps : List (Step ε)} (hmoves : MovesFile i mode name steps) :
    postsOf steps = [] := by
  cases hmoves with
  | nothing => rfl
  | moved _ hrest =>
    refine List.filterMap_eq_nil_iff.2 (List.forall_mem_cons.2 ⟨rfl, fun step hstep => ?_⟩)
    cases step with
    | posted url body answer => exact (hrest _ hstep).elim
    | exchanged | published => rfl

theorem exchanged_fileRead (r : ReadRequest) :
    (Request.fileRead r).Exchanged (IsMove (ε := ε) i mode) i :=
  fun _ _ hcode => ⟨rfl, .inl ⟨r, Terminal.readCommand_command hcode⟩⟩

theorem exchanged_fileWrite (r : WriteRequest) :
    (Request.fileWrite r).Exchanged (IsMove (ε := ε) i .truncate) i :=
  fun _ _ hcode => ⟨rfl, .inr ⟨rfl, r, Terminal.readCommand_command hcode⟩⟩

/-! ## Selections -/

/-- A request is one exchange; without an encoding it fails before that. -/
theorem records_exchange {r : Request} {steps : List (Step ε)} {answer : Except Error Response}
    (hrecords : Records (Device.exchange i r) steps answer) :
    (steps = [] ∧ ∃ e, answer = .error e) ∨
      ∃ c, r.command = .ok c ∧ steps = [.exchanged i c answer] := by
  unfold Device.exchange at hrecords
  split at hrecords
  case h_1 c hcode => exact .inr ⟨c, hcode, records_submit.1 hrecords⟩
  case h_2 e hcode =>
    obtain ⟨rfl, rfl⟩ := records_throw.1 hrecords
    exact .inl ⟨rfl, _, rfl⟩

/-- So is a selection, whose reply is then judged. -/
theorem records_selectReply {r : SelectRequest} {refusal : Error} {steps : List (Step ε)}
    {result : Except Error SelectReply}
    (hrecords : Records (selectReply i r refusal) steps result) :
    (steps = [] ∧ ∃ e, result = .error e) ∨
      ∃ c answer, (Request.fileSelect r).command = .ok c ∧ steps = [.exchanged i c answer] := by
  rcases records_bind.1 hrecords with
    ⟨first, answer, second, rfl, hfirst, hjudge⟩ | ⟨e, hfirst, rfl⟩
  · have hnothing : Only (fun _ : Step ε => False) (do
        if !answer.status.isSuccess then throw refusal
        let reply ← readBody SelectReply.decode answer
        if reply.size < 0 then throw refusal
        return reply : Attempt ε Error SelectReply) :=
      .check <| (only_readBody _ answer).bind fun _ => .check <| .pure _
    obtain rfl : second = [] := List.eq_nil_iff_forall_not_mem.2 (hnothing second result hjudge)
    obtain ⟨-, e, he⟩ | ⟨c, hcode, rfl⟩ := records_exchange hfirst
    · cases he
    · exact .inr ⟨c, _, hcode, rfl⟩
  · obtain ⟨rfl, -⟩ | ⟨c, hcode, rfl⟩ := records_exchange hfirst
    · exact .inl ⟨rfl, e, rfl⟩
    · exact .inr ⟨c, _, hcode, rfl⟩

/-- What comes after a selection moves the file if it takes nothing but moves, and nothing when the
selection has failed. -/
theorem movesFile_of_select {refusal : Error} {k : Except Error SelectReply → Session ε α}
    (hreply : ∀ reply, Session.Takes (IsMove i mode) (k (.ok reply)))
    (herror : ∀ e, ∃ a, k (.error e) = .done a) {steps : List (Step ε)} {a : α}
    (hgen : Session.Generates ((selectReply i ⟨mode, name⟩ refusal).run >>= k) steps a) :
    MovesFile i mode name steps := by
  obtain ⟨first, result, second, rfl, hselect, hsecond⟩ := Session.generates_bind.1 hgen
  have hfailed : ∀ e, result = .error e → second = [] := by
    rintro e rfl
    obtain ⟨b, hdone⟩ := herror e
    rw [hdone] at hsecond
    cases hsecond
    rfl
  obtain ⟨rfl, e, he⟩ | ⟨c, answer, hcode, rfl⟩ := records_selectReply hselect
  · rw [hfailed e he]
    exact .nothing
  · refine .moved (Terminal.readCommand_command hcode) ?_
    cases result with
    | ok reply => exact hreply reply second a hsecond
    | error e => simp [hfailed e rfl]

/-- So it is for attempts. -/
theorem movesFile_of_records {refusal : Error} {k : SelectReply → Attempt ε Error α}
    (hk : ∀ reply, Only (IsMove i mode) (k reply)) {steps : List (Step ε)} {r : Except Error α}
    (hrecords : Records (selectReply i ⟨mode, name⟩ refusal >>= k) steps r) :
    MovesFile i mode name steps :=
  movesFile_of_select (k := ExceptT.bindCont k) hk (fun e => ⟨.error e, rfl⟩) hrecords

/-! ## Transfers -/

theorem movesFile_download {report : Share → ε} {steps : List (Step ε)} {r : Except Error Bytes}
    (hrecords : Records (download i name options report) steps r) :
    MovesFile i .read name steps := by
  unfold download at hrecords
  split at hrecords
  case isTrue =>
    obtain ⟨rfl, -⟩ := records_throw.1 hrecords
    exact .nothing
  case isFalse =>
    rw [selectForReading_eq, bind_assoc] at hrecords
    refine movesFile_of_records (fun reply => ?_) hrecords
    have hsize : Only (IsMove i .read) (do
        if reply.size = 0 then throw (.emptyFile name)
        return reply.size.toNatClampNeg : Attempt ε Error Nat) := .check <| .pure _
    exact hsize.bind fun total =>
      only_readFrom (fun r => exchanged_fileRead r) (fun _ => trivial) 0 _ []

theorem movesFile_uploadRange {report : Nat → ε} {data : Bytes} {offset length : Nat}
    {steps : List (Step ε)} {r : Except Error Nat}
    (hrecords : Records (uploadRange data offset length i name options report) steps r) :
    MovesFile i .truncate name steps := by
  unfold uploadRange at hrecords
  dsimp only at hrecords
  split at hrecords
  case isTrue =>
    obtain ⟨rfl, -⟩ := records_throw.1 hrecords
    exact .nothing
  case isFalse =>
    split at hrecords
    case isTrue =>
      obtain ⟨rfl, -⟩ := records_throw.1 hrecords
      exact .nothing
    case isFalse =>
      rw [selectForWriting_eq, bind_assoc] at hrecords
      refine movesFile_of_records (fun reply => ?_) hrecords
      exact (Only.pure ()).bind fun _ =>
        only_writePieces (fun r => exchanged_fileWrite r) (fun _ => trivial) 0 _ _

/-- What a source gives is written to the selected file. -/
theorem takes_writeFrom (src : ByteSource τ) {report : Nat → ε} (sent : Nat) (pace : Pace) (s : τ) :
    Session.Takes (IsMove i .truncate) (writeFrom src i options report sent pace s) := by
  -- The induction is on the offsets that are left to write at.
  induction hleft : 0x100000000 - sent using Nat.strongRecOn generalizing sent pace s with
  | _ left ih =>
    rw [writeFrom]
    rcases src.gather options.maxChunk s with ⟨_ | piece, s'⟩
    · exact Session.takes_done _
    · dsimp only
      split
      case isTrue hadvanced =>
        have hpiece : Session.Takes (IsMove (ε := ε) i .truncate)
            (writePiece i options.delayMs sent piece : Attempt ε Error Unit).run :=
          only_writePiece (fun r => exchanged_fileWrite r) _ _ _
        refine hpiece.bind fun result => ?_
        cases result with
        | error e => exact Session.takes_done _
        | ok _ => exact .report trivial (ih _ (by omega) _ _ _ rfl)
      case isFalse =>
        split
        · exact Session.takes_done _
        · exact .report trivial (Session.takes_done _)

theorem takes_writeBuffered (src : ByteSource τ) {report : Nat → ε} (s : τ) :
    Session.Takes (IsMove i .truncate) (writeBuffered src i options report s) := by
  unfold writeBuffered
  split
  · exact Session.takes_done _
  · exact (takes_writeFrom src 0 _ s).bind fun out => Session.takes_done _

theorem movesFile_uploadFrom {src : ByteSource τ} {start : τ} {report : Nat → ε}
    {steps : List (Step ε)} {out : Option (Except Error Nat) × τ}
    (hgen : Session.Generates (uploadFrom src start i name options report) steps out) :
    MovesFile i .truncate name steps := by
  unfold uploadFrom at hgen
  split at hgen
  case isTrue =>
    cases hgen
    exact .nothing
  case isFalse =>
    rw [selectForWriting_eq, ExceptT.run_bind, bind_assoc] at hgen
    refine movesFile_of_select ?_ ?_ hgen
    · intro reply
      exact (takes_writeBuffered src start).bind fun out => Session.takes_done _
    · intro e
      exact ⟨_, rfl⟩

end Transfer

/-! ## Operations that are transfers -/

namespace Operation

/-- The operation is a transfer of this file on this interface, which selects it for `mode`. -/
inductive Moves (i : Interface) (name : String) : SelectMode → Operation → Prop where
  | download (options : TransferOptions) : Moves i name .read (.download i name options)
  | upload (data : Bytes) (offset length : Nat) (options : TransferOptions) :
      Moves i name .truncate (.upload i name data offset length options)
  | uploadFrom {ι : Type} (source : ByteSource ι) (start : ι) (options : TransferOptions) :
      Moves i name .truncate (.uploadFrom i name source start options)

theorem Moves.movesFile {i : Interface} {name : String} {mode : SelectMode} {op : Operation}
    (hop : Moves i name mode op) {steps : List (Step Progress)} {result : Result}
    (hgen : Session.Generates op.session steps result) :
    Transfer.MovesFile i mode name steps := by
  cases hop with
  | download options =>
    obtain ⟨r, hrecords, -⟩ := Session.generates_map.1 hgen
    exact Transfer.movesFile_download hrecords
  | upload data offset length options =>
    obtain ⟨r, hrecords, -⟩ := Session.generates_map.1 hgen
    exact Transfer.movesFile_uploadRange hrecords
  | uploadFrom source start options =>
    obtain ⟨out, hgen, -⟩ := Session.generates_map.1 hgen
    exact Transfer.movesFile_uploadFrom hgen

end Operation

end KeyInjection
