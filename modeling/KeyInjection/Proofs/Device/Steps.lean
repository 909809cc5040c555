-- SUMMARY: What holds of every step of an operation, whatever its surroundings do.
import KeyInjection.Proofs.Session.Talk
import KeyInjection.Transfer.Download
import KeyInjection.Transfer.Upload

/-!
# Steps of operations

`Only P a` says that every step that the attempt `a` can take satisfies `P`. The rules follow the
way attempts are put together; an operation takes only exchanges of its requests and publishes only
its reports.
-/

namespace KeyInjection

variable {ε φ ψ : Type} {P : Step ε → Prop}

/-- Every step of the attempt satisfies `P`, whatever its surroundings do. -/
def Only (P : Step ε → Prop) (a : Attempt ε φ α) : Prop :=
  ∀ steps r, Records a steps r → ∀ step ∈ steps, P step

namespace Only

theorem run {a : Attempt ε φ α} (honly : Only P a) (w : Surroundings σ) (s : σ) :
    ∀ step ∈ (a.run.run w s).steps, P step := honly _ _ (records_run w a s)

theorem pure (v : α) : Only P (Pure.pure v : Attempt ε φ α) := by
  intro steps r hrecords
  obtain ⟨rfl, -⟩ := records_pure.1 hrecords
  exact nofun

theorem throw (e : φ) : Only P (throw e : Attempt ε φ α) := by
  intro steps r hrecords
  obtain ⟨rfl, -⟩ := records_throw.1 hrecords
  exact nofun

theorem emit {e : ε} (hevent : P (.published e)) :
    Only P (ExceptT.lift (Session.emit e) : Attempt ε φ Unit) := by
  intro steps r hrecords
  obtain ⟨rfl, -⟩ := records_emit.1 hrecords
  simpa using hevent

theorem submit {i : Interface} {c : Command} (hexchange : ∀ answer, P (.exchanged i c answer)) :
    Only P (Device.submit i c : Attempt ε Error Response) := by
  intro steps r hrecords
  obtain rfl := records_submit.1 hrecords
  simpa using hexchange r

theorem bind {a : Attempt ε φ α} {k : α → Attempt ε φ β} (ha : Only P a) (hk : ∀ v, Only P (k v)) :
    Only P (a >>= k) := by
  intro steps r hrecords step hstep
  rcases records_bind.1 hrecords with ⟨first, v, second, rfl, hfirst, hsecond⟩ | ⟨e, hfirst, -⟩
  · rcases List.mem_append.1 hstep with hstep | hstep
    · exact ha _ _ hfirst step hstep
    · exact hk v _ _ hsecond step hstep
  · exact ha _ _ hfirst step hstep

theorem lift_run {a : Attempt ε ψ α} (ha : Only P a) :
    Only P (ExceptT.lift a.run : Attempt ε φ (Except ψ α)) := by
  intro steps r hrecords
  obtain ⟨x, hrecords, -⟩ := records_lift_run.1 hrecords
  exact ha _ _ hrecords

theorem report {c : Prop} [Decidable c] {e : ε} {a : Attempt ε φ β} (hevent : P (.published e))
    (ha : Only P a) :
    Only P
      (if c then (ExceptT.lift (Session.emit e) : Attempt ε φ Unit) >>= fun _ => a else a) := by
  split
  · exact (emit hevent).bind fun _ => ha
  · exact ha

/-- A check that may end the attempt takes no step. -/
theorem check {c : Prop} [Decidable c] {e : φ} {k : Unit → Attempt ε φ β} (hk : Only P (k ())) :
    Only P (if c then (MonadExcept.throw e : Attempt ε φ Unit) >>= k else k ()) := by
  split
  · exact throw e
  · exact hk

theorem forM {f : α → Attempt ε φ Unit} {l : List α} (hf : ∀ x ∈ l, Only P (f x)) :
    Only P (l.forM f) := by
  induction l with
  | nil => exact pure ()
  | cons x rest ih =>
    rw [List.forM_eq_forM, List.forM_cons]
    exact (hf x (List.mem_cons_self ..)).bind fun _ =>
      ih fun y hy => hf y (List.mem_cons_of_mem _ hy)

end Only

/-! ## Device commands -/

/-- Every exchange of the request satisfies `P`. -/
def Request.Exchanged (P : Step ε → Prop) (i : Interface) (r : Request) : Prop :=
  ∀ c answer, r.command = .ok c → P (.exchanged i c answer)

namespace Device

variable {i : Interface} {r : Request}

theorem only_exchange (hr : r.Exchanged P i) :
    Only P (Device.exchange i r : Attempt ε Error Response) := by
  unfold Device.exchange
  split
  case h_1 c hcode => exact .submit fun answer => hr c answer hcode
  case h_2 => exact .throw _

theorem only_check (answer : Response) : Only P (Device.check answer : Attempt ε Error Unit) := by
  unfold Device.check
  split
  · exact .pure ()
  · exact .throw _

theorem only_readBody (decode : Bytes → Except CodecError (α × Nat)) (answer : Response) :
    Only P (Device.readBody decode answer : Attempt ε Error α) := by
  unfold Device.readBody
  split
  · exact .pure _
  · exact .throw _

theorem only_command (hr : r.Exchanged P i) :
    Only P (Device.command i r : Attempt ε Error Unit) :=
  (only_exchange hr).bind only_check

theorem only_request (hr : r.Exchanged P i) (decode : Bytes → Except CodecError (α × Nat)) :
    Only P (Device.request i r decode : Attempt ε Error α) :=
  (only_exchange hr).bind fun answer =>
    (only_check answer).bind fun _ => only_readBody decode answer

theorem only_keyImport (hr : Request.keyImport.Exchanged P i) :
    Only P (Device.keyImport i : Attempt ε Error Unit) := by
  refine (only_request hr _).bind fun answer => ?_
  split
  · exact .pure ()
  · exact .throw _

end Device

/-! ## Transfers -/

namespace Transfer

open Device

variable {i : Interface} {name : String} {options : TransferOptions}

theorem only_selectForReading (hselect : (Request.fileSelect ⟨.read, name⟩).Exchanged P i) :
    Only P (selectForReading i name : Attempt ε Error Nat) :=
  (only_exchange hselect).bind fun answer => .check <|
    (only_readBody _ answer).bind fun _ => .check <| .check <| .pure _

theorem only_readFrom {report : Share → ε} {chunk total : Nat}
    (hread : ∀ r, (Request.fileRead r).Exchanged P i)
    (hreport : ∀ share, P (.published (report share)))
    (offset : Nat) (pace : Pace) (past : List Bytes) :
    Only P (readFrom i chunk total report offset pace past) := by
  -- The induction is on the bytes still to come.
  induction hleft : total - offset using Nat.strongRecOn generalizing offset pace past with
  | _ left ih =>
    rw [readFrom]
    split
    case isTrue hmore =>
      refine (only_exchange (hread _)).bind fun answer => ?_
      dsimp only
      split
      case isTrue haccepted => exact .report (hreport _) (ih _ (by omega) _ _ _ rfl)
      case isFalse => exact .throw _
    case isFalse => exact .report (hreport _) (.pure _)

theorem only_download {report : Share → ε}
    (hselect : (Request.fileSelect ⟨.read, name⟩).Exchanged P i)
    (hread : ∀ r, (Request.fileRead r).Exchanged P i)
    (hreport : ∀ share, P (.published (report share))) :
    Only P (download i name options report) := by
  unfold download
  exact .check <| (only_selectForReading hselect).bind fun _ => only_readFrom hread hreport _ _ _

theorem only_selectForWriting (hselect : (Request.fileSelect ⟨.truncate, name⟩).Exchanged P i) :
    Only P (selectForWriting i name : Attempt ε Error Unit) :=
  (only_exchange hselect).bind fun answer => .check <|
    (only_readBody _ answer).bind fun _ => .check <| .pure _

theorem only_writePiece (hwrite : ∀ r, (Request.fileWrite r).Exchanged P i) (delayMs : UInt16)
    (offset : Nat) (piece : Bytes) :
    Only P (writePiece i delayMs offset piece : Attempt ε Error Unit) :=
  (only_exchange (hwrite _)).bind fun _ => .check <| .pure _

theorem only_writePieces {report : Nat → ε} (hwrite : ∀ r, (Request.fileWrite r).Exchanged P i)
    (hreport : ∀ sent, P (.published (report sent))) (sent : Nat) (pace : Pace)
    (pieces : List Bytes) : Only P (writePieces i options report sent pace pieces) := by
  induction pieces generalizing sent pace with
  | nil => exact .report (hreport _) (.pure _)
  | cons piece rest ih =>
    rw [writePieces]
    exact .check <| (only_writePiece hwrite _ _ _).bind fun _ => .report (hreport _) (ih _ _)

theorem only_upload {report : Nat → ε} (data : Bytes)
    (hselect : (Request.fileSelect ⟨.truncate, name⟩).Exchanged P i)
    (hwrite : ∀ r, (Request.fileWrite r).Exchanged P i)
    (hreport : ∀ sent, P (.published (report sent))) :
    Only P (upload data i name options report) := by
  unfold upload uploadRange
  exact .check <| .check <|
    (only_selectForWriting hselect).bind fun _ => only_writePieces hwrite hreport _ _ _

end Transfer

end KeyInjection
