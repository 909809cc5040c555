-- SUMMARY: Operations that a client refuses on its own, without a trace, and no others.
import KeyInjection.Channel.Script
import KeyInjection.Proofs.Device.Operations
import KeyInjection.Proofs.Transfer.Validation

/-!
# Local validation

A prompt that is too long and a transfer that cannot be meant are refused by the client itself
(`Operation.Refused`). Such an operation is a session that has ended (`Refused.session_eq`), so
there is nothing of it to be seen in what is performed before and after it. Every other prompt and
transfer opens with its first command (`opens_session`).
-/

namespace KeyInjection

variable {ε σ ι : Type}

namespace Operation

open Device

/-- The operations that a client refuses, and what they end in. -/
inductive Refused : Operation → Result → Prop where
  | display {i : Interface} {text : String} (hlong : 64 < (textBytes text).length) :
      Refused (.display i text) (.ended (.error (.apdu .invalidLength)))
  | download {i : Interface} {name : String} {options : TransferOptions} {e : Error}
      (hrefused : Transfer.Refused options True name e) :
      Refused (.download i name options) (.content (.error e))
  | upload {i : Interface} {name : String} {data : Bytes} {offset length : Nat}
      {options : TransferOptions} {e : Error}
      (hrefused : Transfer.Refused options (offset + length ≤ data.length) name e) :
      Refused (.upload i name data offset length options) (.count (.error e))
  | uploadFrom {ι : Type} {i : Interface} {name : String} {source : ByteSource ι} {start : ι}
      {options : TransferOptions} {e : Error} (hrefused : Transfer.Refused options True name e) :
      Refused (.uploadFrom i name source start options) (.count (.error e))

/-- The request that a prompt or a transfer opens with. -/
def opening? : Operation → Option (Interface × Request)
  | display i text => some (i, .display (.prompt text))
  | download i name _ => some (i, .fileSelect ⟨.read, name⟩)
  | upload i name .. | uploadFrom i name .. => some (i, .fileSelect ⟨.truncate, name⟩)
  | secureState _ | secureInit _ | keyImport _ | inject .. => none

variable {op : Operation} {result : Result}

/-- A refused operation has ended before it began. -/
theorem Refused.session_eq (hrefused : op.Refused result) : op.session = .done result := by
  cases hrefused with
  | @display i text hlong =>
    have hcode : (Request.display (.prompt text)).command = .error .invalidLength :=
      Request.command_of_not_withinLimits (Nat.not_le.2 hlong)
    rw [session, (startsWith_display i text).eq_throw hcode]
    rfl
  | download hrefused =>
    rw [session, hrefused.download_eq]
    rfl
  | upload hrefused =>
    rw [session, hrefused.uploadRange_eq]
    rfl
  | uploadFrom hrefused =>
    rw [session, hrefused.uploadFrom_eq]
    rfl

/-- A prompt or a transfer that is not refused opens with its first command. -/
theorem opens_session {i : Interface} {r : Request} (hopening : op.opening? = some (i, r))
    (hnot : ∀ result, ¬ op.Refused result) :
    ∃ c, r.command = .ok c ∧ op.session.Opens i c := by
  cases op with
  | display i text =>
    cases hopening
    have hfits : (textBytes text).length ≤ 64 := by
      by_contra hlong
      exact hnot _ (.display (Nat.not_le.1 hlong))
    obtain ⟨c, hcode⟩ :=
      (Request.exists_command_iff (r := .display (.prompt text))).2 hfits
    exact ⟨c, hcode, ((startsWith_display i text).opens hcode).bind _⟩
  | download i name options =>
    cases hopening
    obtain ⟨hchunk, -, c, hcode⟩ := Transfer.of_not_refused .read fun e he => hnot _ (.download he)
    exact ⟨c, hcode, ((Transfer.startsWith_download hchunk Progress.read).opens hcode).bind _⟩
  | upload i name data offset length options =>
    cases hopening
    obtain ⟨hchunk, hrange, c, hcode⟩ :=
      Transfer.of_not_refused .truncate fun e he => hnot _ (.upload he)
    exact ⟨c, hcode,
      ((Transfer.startsWith_uploadRange hchunk hrange Progress.written).opens hcode).bind _⟩
  | uploadFrom i name source start options =>
    cases hopening
    obtain ⟨hchunk, -, c, hcode⟩ :=
      Transfer.of_not_refused .truncate fun e he => hnot _ (.uploadFrom he)
    exact ⟨c, hcode, (Transfer.opens_uploadFrom hchunk hcode Progress.written).bind _⟩
  | secureState | secureInit | keyImport | inject => cases hopening

theorem Refused.run_session (hrefused : op.Refused result) (w : Surroundings σ) (s : σ) :
    op.session.run w s = ⟨result, s, []⟩ := by
  rw [hrefused.session_eq, Session.run_done]

/-- Wherever a refused operation is performed among others, these have the results and records that
they have without it. -/
theorem Refused.performAll_insertIdx (hrefused : op.Refused result) (w : Surroundings σ) (n : Nat)
    (ops : List Operation) (s : σ) :
    performAll w (ops.insertIdx n op) s =
      ((performAll w ops s).1.insertIdx n (result, []), (performAll w ops s).2) := by
  induction n generalizing ops s with
  | zero =>
    rw [List.insertIdx_zero, performAll_cons, hrefused.run_session]
    rfl
  | succ n ih =>
    cases ops with
    | nil => rfl
    | cons first rest =>
      rw [List.insertIdx_succ_cons, performAll_cons, performAll_cons]
      dsimp only
      rw [ih, List.insertIdx_succ_cons]

/-- Validation is local. A client refuses prompts of more than 64 bytes, transfers with pieces of no
bytes, uploads of a range that the buffer does not have, and transfers of a file with an empty or
too long name. Of such an operation nothing is to be seen: in any surroundings and any state it
takes no step, the state stays, nothing is read of a source, and operations before and after it go
as without it. It refuses no other prompt or transfer: these submit their first command, and the
range of an upload that takes any step is within the buffer. Whether it is can be told in 64
bits. -/
theorem validation_local :
    (∀ (op : Operation) (result : Result), op.Refused result →
      ∀ (w : Surroundings σ) (s : σ), op.session.run w s = ⟨result, s, []⟩ ∧
        ∀ (n : Nat) (ops : List Operation), performAll w (ops.insertIdx n op) s =
          ((performAll w ops s).1.insertIdx n (result, []), (performAll w ops s).2)) ∧
    (∀ (source : ByteSource ι) (start : ι) (i : Interface) (name : String)
      (options : TransferOptions) (e : Error), Transfer.Refused options True name e →
      ∀ (report : Nat → ε) (w : Surroundings σ) (s : σ),
        (Transfer.uploadFrom source.recording (start, []) i name options report).run w s =
          ⟨(some (.error e), (source.close start, [])), s, []⟩) ∧
    (∀ (op : Operation) (i : Interface) (r : Request), op.opening? = some (i, r) →
      (∀ result, ¬ op.Refused result) → ∃ c, r.command = .ok c ∧
        ∀ (w : Surroundings σ) (s : σ), ∃ later,
          (op.session.run w s).steps = .exchanged i c (w.exchange i c s).1 :: later) ∧
    (∀ (i : Interface) (name : String) (data : Bytes) (offset length : Nat)
      (options : TransferOptions) (w : Surroundings σ) (s : σ),
      ((upload i name data offset length options).session.run w s).steps ≠ [] →
        offset + length ≤ data.length ∧ ((data.drop offset).take length).length = length) ∧
    ∀ (data : Bytes) (offset length : UInt64), data.length < UInt64.size →
      (Transfer.rangeExceeds data offset length = true ↔
        data.length < offset.toNat + length.toNat) := by
  refine ⟨?_, ?_, ?_, ?_, fun _ _ _ hdata => Transfer.rangeExceeds_iff hdata⟩
  · intro op result hrefused w s
    exact ⟨hrefused.run_session w s, fun n ops => hrefused.performAll_insertIdx w n ops s⟩
  · intro source start i name options e hrefused report w s
    rw [hrefused.uploadFrom_eq]
    rfl
  · intro op i r hopening hnot
    obtain ⟨c, hcode, hopens⟩ := opens_session hopening hnot
    exact ⟨c, hcode, hopens.exists_steps_eq⟩
  · intro i name data offset length options w s hsteps
    have hrange : offset + length ≤ data.length := by
      by_contra hrange
      obtain ⟨e, hrefused⟩ := Transfer.exists_refused hrange
      exact hsteps (congrArg Outcome.steps ((Refused.upload hrefused).run_session w s))
    refine ⟨hrange, ?_⟩
    rw [List.length_take, List.length_drop]
    omega

/-- Two uploads from a buffer of a hundred bytes to a terminal that is gone, one of the last two
bytes and one of a range whose end 64 bits do not hold, and an upload of a stream to no name. -/
theorem validation_local_overflow :
    let data : Bytes := List.replicate 100 0
    let within : Operation := .upload .primary "f" data 98 2 .upload
    let beyond : Operation := .upload .primary "f" data 0xffffffffffffffff 2 .upload
    let refused : Result := .count (.error (.invalidArgument "buffer range out of bounds"))
    let source : ByteSource Unit := ⟨fun room t => (.ok (List.replicate room 0), t), id⟩
    let w := Surroundings.of Channel.scripted KeyHost.scripted
    let s : Script × ScriptedHost := ({ entries := [] }, .ofScript .unreachable)
    beyond.session.run w s = ⟨refused, s, []⟩ ∧
      performAll w ([within].insertIdx 0 beyond) s =
        ((refused, []) :: (performAll w [within] s).1, (performAll w [within] s).2) ∧
      (Transfer.uploadFrom source.recording ((), []) .primary "" .upload Progress.written).run w s =
        ⟨(some (.error (.apdu .invalidLength)), ((), [])), s, []⟩ ∧
      (∃ c later,
        (within.session.run w s).steps = .exchanged .primary c (.error .disconnected) :: later) ∧
      ((data.drop 98).take 2).length = 2 ∧
      Transfer.rangeExceeds data 0xffffffffffffffff 2 = true := by
  intro data within beyond refused source w s
  have hdata : data.length = 100 := List.length_replicate
  have hchunk : TransferOptions.upload.maxChunk ≠ 0 := by decide
  have hbeyond : ¬ 0xffffffffffffffff + 2 ≤ data.length := by omega
  obtain ⟨hnothing, hunread, hopens, hslice, hwords⟩ :=
    validation_local (σ := Script × ScriptedHost) (ε := Progress) (ι := Unit)
  obtain ⟨hrun, hamong⟩ := hnothing beyond refused (.upload (.range hchunk hbeyond)) w s
  have hnot : ∀ result, ¬ Refused (.upload .primary "f" data 98 2 .upload) result := by
    intro result hrefused
    cases hrefused with
    | upload hrefused =>
      cases hrefused with
      | chunk hzero => exact hchunk hzero
      | range _ hrange => exact hrange (by omega)
      | name _ _ hname => exact absurd hname (by decide)
  obtain ⟨c, -, hsteps⟩ := hopens within _ _ rfl hnot
  obtain ⟨later, hsteps⟩ := hsteps w s
  have hsome : (within.session.run w s).steps ≠ [] := by
    rw [hsteps]
    nofun
  exact ⟨hrun, hamong 0 [within],
    hunread source () .primary "" .upload _ (.name hchunk trivial (.inl rfl)) _ w s,
    ⟨c, later, hsteps⟩, (hslice _ _ _ _ _ _ w s hsome).2,
    (hwords data 0xffffffffffffffff 2 (by rw [hdata]; decide)).2 (by rw [hdata]; decide)⟩

end Operation

end KeyInjection
