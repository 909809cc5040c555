-- SUMMARY: The dialogues that single commands to a terminal can have.
import KeyInjection.Proofs.Session.Talk

/-!
# Dialogues of device commands

A dialogue is the talk of one operation together with the way it ends. The relations of this module
say which dialogues a device command can have with a terminal that answers as it likes; the
theorems `….of_leaves` say that it has no others. At most one command is submitted, and a request
that has no encoding submits none.
-/

namespace KeyInjection.Device

variable {ε : Type}

/-- The exchange of a request: it has no encoding, or its command is submitted and the answer is
handed on. -/
inductive Asks (i : Interface) (r : Request) : List (Step ε) → Except Error Response → Prop where
  | unsent {e : CodecError} (hcode : r.command = .error e) : Asks i r [] (.error (.apdu e))
  | sent {c : Command} (hcode : r.command = .ok c) (answer : Except Error Response) :
      Asks i r [.exchanged i c answer] answer

/-- A request of which only success matters. -/
inductive Commands (i : Interface) (r : Request) : List (Step ε) → Except Error Unit → Prop where
  | failed {talk : List (Step ε)} {e : Error} (hask : Asks i r talk (.error e)) :
      Commands i r talk (.error e)
  | refused {talk : List (Step ε)} {answer : Response} (hask : Asks i r talk (.ok answer))
      (hstatus : answer.status.isSuccess = false) :
      Commands i r talk (.error (.status answer.status))
  | accepted {talk : List (Step ε)} {answer : Response} (hask : Asks i r talk (.ok answer))
      (hstatus : answer.status.isSuccess = true) : Commands i r talk (.ok ())

/-- A request whose answer carries a value. -/
inductive Requests (i : Interface) (r : Request) (decode : Bytes → Except CodecError (α × Nat)) :
    List (Step ε) → Except Error α → Prop where
  | failed {talk : List (Step ε)} {e : Error} (hask : Asks i r talk (.error e)) :
      Requests i r decode talk (.error e)
  | refused {talk : List (Step ε)} {answer : Response} (hask : Asks i r talk (.ok answer))
      (hstatus : answer.status.isSuccess = false) :
      Requests i r decode talk (.error (.status answer.status))
  | unreadable {talk : List (Step ε)} {answer : Response} {e : CodecError}
      (hask : Asks i r talk (.ok answer)) (hstatus : answer.status.isSuccess = true)
      (hbody : decode answer.body = .error e) : Requests i r decode talk (.error (.apdu e))
  | answered {talk : List (Step ε)} {answer : Response} {v : α} {n : Nat}
      (hask : Asks i r talk (.ok answer)) (hstatus : answer.status.isSuccess = true)
      (hbody : decode answer.body = .ok (v, n)) : Requests i r decode talk (.ok v)

inductive Imports (i : Interface) : List (Step ε) → Except Error Unit → Prop where
  | failed {talk : List (Step ε)} {e : Error}
      (hask : Requests i .keyImport ImportReply.decode talk (.error e)) :
      Imports i talk (.error e)
  | rejected {talk : List (Step ε)} {answer : ImportReply}
      (hask : Requests i .keyImport ImportReply.decode talk (.ok answer))
      (hcode : answer.code ≠ 0) : Imports i talk (.error (.importRejected answer.code))
  | imported {talk : List (Step ε)} {answer : ImportReply}
      (hask : Requests i .keyImport ImportReply.decode talk (.ok answer))
      (hcode : answer.code = 0) : Imports i talk (.ok ())

/-! ## Device commands have no other dialogues -/

/-- Judging a status leaves no talk. -/
theorem leaves_check {answer : Response} {talk : List (Step ε)} {result : Except Error Unit} :
    Leaves (Device.check answer) talk result ↔
      talk = [] ∧ ((answer.status.isSuccess = true ∧ result = .ok ()) ∨
        (answer.status.isSuccess = false ∧ result = .error (.status answer.status))) := by
  unfold Device.check
  cases hstatus : answer.status.isSuccess with
  | true => simp
  | false => simp

/-- Reading a body leaves no talk. -/
theorem leaves_readBody {decode : Bytes → Except CodecError (α × Nat)} {answer : Response}
    {talk : List (Step ε)} {result : Except Error α} :
    Leaves (Device.readBody decode answer) talk result ↔
      talk = [] ∧ ((∃ v n, decode answer.body = .ok (v, n) ∧ result = .ok v) ∨
        ∃ e, decode answer.body = .error e ∧ result = .error (.apdu e)) := by
  unfold Device.readBody
  rcases hbody : decode answer.body with e | ⟨v, n⟩ <;> simp

theorem Asks.of_leaves {i : Interface} {r : Request} {talk : List (Step ε)}
    {answer : Except Error Response} (hleaves : Leaves (Device.exchange i r) talk answer) :
    Asks i r talk answer := by
  unfold Device.exchange at hleaves
  split at hleaves
  case h_1 c hcode =>
    rw [leaves_submit] at hleaves
    exact hleaves ▸ .sent hcode answer
  case h_2 e hcode =>
    obtain ⟨rfl, rfl⟩ := leaves_throw.1 hleaves
    exact .unsent hcode

theorem Commands.of_leaves {i : Interface} {r : Request} {talk : List (Step ε)}
    {result : Except Error Unit} (hleaves : Leaves (Device.command i r) talk result) :
    Commands i r talk result := by
  rcases leaves_bind.1 hleaves with ⟨first, answer, second, rfl, hask, hcheck⟩ | ⟨e, hask, rfl⟩
  · obtain ⟨rfl, ⟨hstatus, rfl⟩ | ⟨hstatus, rfl⟩⟩ := leaves_check.1 hcheck
    · simpa using Commands.accepted (.of_leaves hask) hstatus
    · simpa using Commands.refused (.of_leaves hask) hstatus
  · exact .failed (.of_leaves hask)

theorem Requests.of_leaves {i : Interface} {r : Request}
    {decode : Bytes → Except CodecError (α × Nat)} {talk : List (Step ε)} {result : Except Error α}
    (hleaves : Leaves (Device.request i r decode) talk result) :
    Requests i r decode talk result := by
  rcases leaves_bind.1 hleaves with ⟨first, answer, second, rfl, hask, hjudge⟩ | ⟨e, hask, rfl⟩
  · have hask := Asks.of_leaves hask
    rcases leaves_bind.1 hjudge with ⟨nothing, v, rest, rfl, hcheck, hread⟩ | ⟨e, hcheck, rfl⟩
    · obtain ⟨rfl, ⟨hstatus, -⟩ | ⟨-, hv⟩⟩ := leaves_check.1 hcheck
      · obtain ⟨rfl, ⟨v, n, hbody, rfl⟩ | ⟨e, hbody, rfl⟩⟩ := leaves_readBody.1 hread
        · simpa using Requests.answered hask hstatus hbody
        · simpa using Requests.unreadable hask hstatus hbody
      · cases hv
    · obtain ⟨rfl, ⟨-, he⟩ | ⟨hstatus, he⟩⟩ := leaves_check.1 hcheck
      · cases he
      · cases he
        simpa using Requests.refused hask hstatus
  · exact .failed (.of_leaves hask)

theorem Imports.of_leaves {i : Interface} {talk : List (Step ε)} {result : Except Error Unit}
    (hleaves : Leaves (Device.keyImport i) talk result) : Imports i talk result := by
  rcases leaves_bind.1 hleaves with ⟨first, answer, second, rfl, hask, hjudge⟩ | ⟨e, hask, rfl⟩
  · have hask := Requests.of_leaves hask
    split at hjudge
    case isTrue hcode =>
      obtain ⟨rfl, rfl⟩ := leaves_pure.1 hjudge
      simpa using Imports.imported hask
        (by simpa [ImportReply.isOk, ImportReply.noError] using hcode)
    case isFalse hcode =>
      obtain ⟨rfl, rfl⟩ := leaves_throw.1 hjudge
      simpa using Imports.rejected hask
        (by simpa [ImportReply.isOk, ImportReply.noError] using hcode)
  · exact .failed (.of_leaves hask)

/-- Only a request that has an encoding is accepted. -/
theorem Commands.exists_command {i : Interface} {r : Request} {talk : List (Step ε)}
    (hcommand : Commands i r talk (.ok ())) : ∃ c, r.command = .ok c := by
  cases hcommand with
  | accepted hask =>
    cases hask with
    | sent hcode => exact ⟨_, hcode⟩

end KeyInjection.Device
