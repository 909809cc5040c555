-- SUMMARY: Uploads of contents of one length differ in nothing but the bytes that they write.
import KeyInjection.Proofs.Session.Pairs

/-!
# Uploads of contents of one length

How an upload cuts its content, what it reports and how it fails depends on the length of the
content alone, as long as what is at the other end does not look at the bytes that are written
(`IsBlind`). So uploads of two contents of one length go alike, and their records differ only in
what stands behind the offset and the delay in the payloads of writes.
-/

namespace KeyInjection

variable {ε σ τ : Type}

/-! ## Records that differ in written bytes -/

/-- The commands differ at most in the bytes that a write puts into a file, which stand behind the
first eight of its payload. -/
structure Command.SameButWritten (c c' : Command) : Prop where
  header_eq : c.header = c'.header
  length_eq : c.data.length = c'.data.length
  data_eq : c.data = c'.data ∨
    c.header.ins = Instruction.fileWrite.code ∧ c.data.take 8 = c'.data.take 8

theorem Command.SameButWritten.refl (c : Command) : c.SameButWritten c := ⟨rfl, rfl, .inl rfl⟩

/-- The steps differ at most in the bytes that a write puts into a file, and in the answer of the
key host. -/
inductive Step.SameButWritten : Step ε → Step ε → Prop where
  | exchanged {i : Interface} {c c' : Command} (answer : Except Error Response)
      (hcommand : c.SameButWritten c') :
      SameButWritten (.exchanged i c answer) (.exchanged i c' answer)
  | posted {url body : String} (answer answer' : Except Error Bytes) :
      SameButWritten (.posted url body answer) (.posted url body answer')
  | published (e : ε) : SameButWritten (.published e) (.published e)

/-- The records differ at most in what is written, and in the answers of the key host. -/
def SameButWritten (steps steps' : List (Step ε)) : Prop :=
  List.Forall₂ Step.SameButWritten steps steps'

namespace SameButWritten

theorem refl (steps : List (Step ε)) : SameButWritten steps steps :=
  List.forall₂_same.2 fun step _ => by
    cases step with
    | exchanged i c answer => exact .exchanged answer (.refl c)
    | posted url body answer => exact .posted answer answer
    | published e => exact .published e

variable {steps steps' : List (Step ε)}

/-- Both records have the same events. -/
theorem eventsOf_eq (hsame : SameButWritten steps steps') : eventsOf steps = eventsOf steps' := by
  induction hsame with
  | nil => rfl
  | cons hstep _ ih =>
    rw [eventsOf_cons, eventsOf_cons, ih]
    cases hstep <;> rfl

/-- They have the same commands but for what is written. -/
theorem commands (hsame : SameButWritten steps steps') :
    List.Forall₂ (fun x y => x.1 = y.1 ∧ x.2.SameButWritten y.2) (commandsOf steps)
      (commandsOf steps') := by
  induction hsame with
  | nil => exact .nil
  | cons hstep _ ih =>
    rw [commandsOf_cons, commandsOf_cons]
    cases hstep with
    | exchanged answer hcommand => exact .cons ⟨rfl, hcommand⟩ ih
    | posted => exact ih
    | published => exact ih

end SameButWritten

theorem Composes.sameButWritten : Composes (SameButWritten (ε := ε)) where
  nil := .nil
  append hfirst hsecond := List.rel_append hfirst hsecond

/-! ## Writes -/

/-- Writes of as many bytes at one offset have commands that differ in these bytes only. -/
theorem WriteRequest.sameButWritten (offset : UInt32) (delayMs : UInt16) {data data' : Bytes}
    (hlength : data.length = data'.length) :
    ∃ c c', (Request.fileWrite ⟨offset, delayMs, data⟩).command = .ok c ∧
      (Request.fileWrite ⟨offset, delayMs, data'⟩).command = .ok c' ∧ c.SameButWritten c' := by
  have hfront : ∀ data, (bytes ⟨offset, delayMs, data⟩).take 8 =
      Bytes.ofWord32 offset ++ Bytes.ofWord16 delayMs ++ [0, 0] :=
    fun data => List.take_left' (by simp)
  refine ⟨_, _, rfl, rfl, rfl, ?_, .inr ⟨rfl, ?_⟩⟩
  · simp [bytes, hlength]
  · exact (hfront data).trans (hfront data').symm

/-- What is at the other end in these pairs of states answers alike, whatever is written. -/
def IsBlind (w : Surroundings σ) (v : Surroundings τ) (R : σ → τ → Prop) : Prop :=
  ∀ i c c' s t, c.SameButWritten c' → R s t →
    (w.exchange i c s).1 = (v.exchange i c' t).1 ∧ R (w.exchange i c s).2 (v.exchange i c' t).2

/-! ## Uploads -/

namespace Bytes

/-- Byte strings of one length are cut alike. -/
theorem pieces_alike (size : Nat) {b b' : Bytes} (hlength : b.length = b'.length) :
    List.Forall₂ (fun x y => x.length = y.length) (pieces size b) (pieces size b') := by
  by_cases positive : 0 < size
  · induction b using pieces_induction positive generalizing b' with
    | nil =>
      rw [List.length_nil] at hlength
      rw [List.eq_nil_of_length_eq_zero hlength.symm]
      simp
    | step b hmore ih =>
      have hmore' : b' ≠ [] := by
        rintro rfl
        exact hmore (List.eq_nil_of_length_eq_zero hlength)
      rw [pieces_of_ne_nil positive hmore, pieces_of_ne_nil positive hmore']
      exact .cons (by simp [hlength]) (ih (by simp [hlength]))
  · obtain rfl : size = 0 := by omega
    rw [pieces_zero, pieces_zero]
    exact .nil

end Bytes

section

variable {w : Surroundings σ} {v : Surroundings τ} {R : σ → τ → Prop} (hblind : IsBlind w v R)
include hblind

/-- What asks the key host for nothing goes alike. -/
theorem Paired.of_unposted {φ : Type} {a : Attempt ε φ α}
    (honly : Only (fun step => step.posted? = none) a) :
    Paired w v R SameButWritten Eq a a :=
  .same honly (fun i c s t hrel _ => hblind i c c s t (.refl c) hrel)
    (fun _ _ _ _ _ hnone => by cases hnone) fun steps _ => .refl steps

namespace Transfer

variable {i : Interface}

theorem paired_writePiece (delayMs : UInt16) (offset : Nat) {piece piece' : Bytes}
    (hlength : piece.length = piece'.length) :
    Paired w v R (SameButWritten (ε := ε)) Eq (writePiece i delayMs offset piece)
      (writePiece i delayMs offset piece') := by
  obtain ⟨c, c', hcode, hcode', hsame⟩ :=
    WriteRequest.sameButWritten (UInt32.ofNat offset) delayMs hlength
  refine (Paired.exchange hcode hcode' (fun s t => hblind i c c' s t hsame) ?_).bind
    .sameButWritten ?_
  · exact fun answer => .cons (.exchanged answer hsame) .nil
  · rintro answer _ rfl
    exact .of_unposted hblind (.check (.pure ()))

theorem paired_writePieces {options : TransferOptions} {report : Nat → ε} {l l' : List Bytes}
    (hlengths : List.Forall₂ (fun x y => x.length = y.length) l l') (sent : Nat) (pace : Pace) :
    Paired w v R SameButWritten Eq (writePieces i options report sent pace l)
      (writePieces i options report sent pace l') := by
  -- The induction is on the pieces, of which the number of bytes is all that the rest depends on.
  induction hlengths generalizing sent pace with
  | nil => exact .of_unposted hblind (.report rfl (.pure sent))
  | cons hlength _ ih =>
    rw [writePieces, writePieces, ← hlength]
    have hpiece := paired_writePiece (ε := ε) hblind (i := i) options.delayMs sent hlength
    refine .check .sameButWritten (hpiece.bind .sameButWritten fun _ _ _ => ?_)
    exact .report .sameButWritten (.cons (.published _) .nil) (ih _ _)

/-- Uploads of contents of one length go alike. -/
theorem paired_upload {name : String} {options : TransferOptions} {report : Nat → ε}
    {data data' : Bytes} (hlength : data.length = data'.length) :
    Paired w v R SameButWritten Eq (upload data i name options report)
      (upload data' i name options report) := by
  unfold upload uploadRange
  rw [← hlength]
  refine .check .sameButWritten (.check .sameButWritten ?_)
  refine .bind .sameButWritten (.of_unposted hblind ?_) ?_
  · exact only_selectForWriting fun _ _ _ => rfl
  · rintro _ _ -
    exact paired_writePieces hblind (Bytes.pieces_alike _ (by simp [hlength])) 0 _

end Transfer

end

end KeyInjection
