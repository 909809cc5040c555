-- SUMMARY: Operations of a client, performed one after the other.
import KeyInjection.Injection.Run
import KeyInjection.Proofs.Session.Runs

/-!
# Operations

What a client of a terminal can be asked to do is an `Operation`: a single command, a transfer, or
a whole injection. Operations that are performed one after the other in the same surroundings each
end in a result and leave a record, which has what was exchanged and what progress was reported.
-/

namespace KeyInjection

variable {σ τ : Type}

/-- Progress that is reported while an operation is performed. -/
inductive Progress where
  | read (share : Share)
  | written (sent : Nat)
  | injection (event : Injection.Event)
  deriving DecidableEq, Repr

inductive Operation : Type 1 where
  | display (interface : Interface) (text : String)
  | secureState (interface : Interface)
  | secureInit (interface : Interface)
  | keyImport (interface : Interface)
  | download (interface : Interface) (name : String) (options : TransferOptions)
  /-- Uploads a part of a buffer. -/
  | upload (interface : Interface) (name : String) (data : Bytes) (offset length : Nat)
    (options : TransferOptions)
  /-- Uploads what a source gives. -/
  | uploadFrom {ι : Type} (interface : Interface) (name : String) (source : ByteSource ι)
    (start : ι) (options : TransferOptions)
  | inject (config : Injection.Config) (url : String)

inductive Result where
  | ended (result : Except Error Unit)
  | state (result : Except Error SecureState)
  | content (result : Except Error Bytes)
  | count (result : Except Error Nat)
  | injected (result : Except Injection.Failure Injection.Report)
  /-- There is no result: no buffer has room for a piece of what is uploaded. -/
  | panicked

namespace Operation

def session : Operation → Session Progress Result
  | display i text => .ended <$> (Device.display i text).run
  | secureState i => .state <$> (Device.secureState i).run
  | secureInit i => .ended <$> (Device.secureInit i).run
  | keyImport i => .ended <$> (Device.keyImport i).run
  | download i name options => .content <$> (Transfer.download i name options .read).run
  | upload i name data offset length options =>
    .count <$> (Transfer.uploadRange data offset length i name options .written).run
  | uploadFrom i name source start options =>
    (·.1.elim .panicked .count) <$> Transfer.uploadFrom source start i name options .written
  | inject config url => .injected <$> (Injection.inject config url).mapEvents .injection

/-- Performs operations one after the other: the result and the record of each, and the state they
leave. -/
def performAll (w : Surroundings σ) : List Operation → σ → List (Result × List (Step Progress)) × σ
  | [], s => ([], s)
  | op :: rest, s =>
    let out := op.session.run w s
    let later := performAll w rest out.state
    ((out.value, out.steps) :: later.1, later.2)

theorem performAll_cons (w : Surroundings σ) (op : Operation) (rest : List Operation) (s : σ) :
    performAll w (op :: rest) s =
      let out := op.session.run w s
      let later := performAll w rest out.state
      ((out.value, out.steps) :: later.1, later.2) := rfl

/-- Surroundings that answer alike in the steps that are taken lead to the same results and
records. -/
theorem performAll_simulates {w : Surroundings σ} {v : Surroundings τ} {R : σ → τ → Prop}
    {P : Step Progress → Prop}
    (hexchange : ∀ i c s t, R s t → P (.exchanged i c (w.exchange i c s).1) →
      (w.exchange i c s).1 = (v.exchange i c t).1 ∧ R (w.exchange i c s).2 (v.exchange i c t).2)
    (hpost : ∀ url body s t, R s t →
      (w.post url body s).1 = (v.post url body t).1 ∧ R (w.post url body s).2 (v.post url body t).2)
    (ops : List Operation) {s : σ} {t : τ} (hrel : R s t)
    (hsteps : ∀ x ∈ (performAll w ops s).1, ∀ step ∈ x.2, P step) :
    (performAll w ops s).1 = (performAll v ops t).1 ∧
      R (performAll w ops s).2 (performAll v ops t).2 := by
  induction ops generalizing s t with
  | nil => exact ⟨rfl, hrel⟩
  | cons op rest ih =>
    rw [performAll_cons] at hsteps
    obtain ⟨hfirst, hlater⟩ := List.forall_mem_cons.1 hsteps
    obtain ⟨hvalue, hrecord, hrel⟩ :=
      Session.run_simulates_of_steps hexchange (fun url body s t hrel _ => hpost url body s t hrel)
        op.session hrel hfirst
    obtain ⟨hresults, hrel⟩ := ih hrel hlater
    rw [performAll_cons, performAll_cons]
    dsimp only
    rw [hvalue, hrecord, hresults]
    exact ⟨rfl, hrel⟩

/-! ## As one session -/

/-- Operations one after the other, as one session that ends in their results. -/
def sequence : List Operation → Session Progress (List Result)
  | [] => .done []
  | op :: rest => op.session.bind fun result => (result :: ·) <$> sequence rest

/-- Its run goes as performing them does; the records are in one piece. -/
theorem run_sequence (w : Surroundings σ) (ops : List Operation) (s : σ) :
    (sequence ops).run w s =
      let performed := performAll w ops s
      ⟨performed.1.map (·.1), performed.2, performed.1.flatMap (·.2)⟩ := by
  induction ops generalizing s with
  | nil => rfl
  | cons op rest ih =>
    rw [sequence, Session.run_bind]
    dsimp only
    rw [Session.run_map, ih]
    rfl

end Operation

end KeyInjection
