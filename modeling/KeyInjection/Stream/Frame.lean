-- SUMMARY: Commands and responses as frames of a byte stream.
import KeyInjection.Apdu.Frame
import KeyInjection.Channel

/-!
# Frames of a stream

A command or response is written to a byte stream as one frame. A reader sees the bytes that have
arrived so far: at their front stands a whole frame, or a header that is refused, or so little
that only more bytes can tell.

* `request_frame` and `response_frame` say that what is written is read back, whatever follows it;
* `Front.ofHeader_append` says that bytes arriving later change nothing that has been decided.
-/

namespace KeyInjection

def Command.frame (i : Interface) (c : Command) : Bytes :=
  (RequestFrame.mk i c.header (UInt32.ofNat c.data.length)).bytes ++ c.data

def Response.frame (r : Response) : Bytes :=
  (ResponseFrame.mk r.status (UInt32.ofNat r.body.length)).bytes ++ r.body

/-- What stands at the front of a stream. -/
inductive Front (α : Type) where
  /-- Only more bytes can tell. -/
  | incomplete
  /-- A header that is refused; only the header is gone from the rest. -/
  | refused (cause : CodecError) (rest : Bytes)
  | whole (content : α) (rest : Bytes)
  deriving DecidableEq, Repr

namespace Front

/-- The front of a stream of frames whose headers have `size` bytes and tell the length of what
follows. -/
def ofHeader (size : Nat) (decode : Bytes → Except CodecError η) (length : η → Nat)
    (content : η → Bytes → α) (b : Bytes) : Front α :=
  if b.length < size then .incomplete
  else match decode (b.take size) with
    | .error e => .refused e (b.drop size)
    | .ok h =>
      let rest := b.drop size
      if rest.length < length h then .incomplete
      else .whole (content h (rest.take (length h))) (rest.drop (length h))

def request : Bytes → Front (Interface × Command) :=
  ofHeader RequestFrame.size RequestFrame.decode (·.length.toNat) fun h data =>
    (h.interface, ⟨h.header, data⟩)

def response : Bytes → Front Response :=
  ofHeader ResponseFrame.size ResponseFrame.decode (·.length.toNat) fun h body => ⟨h.status, body⟩

section

variable {size : Nat} {decode : Bytes → Except CodecError η} {length : η → Nat}
  {content : η → Bytes → α}

/-- The front with `more` bytes behind its rest. -/
def followedBy (more : Bytes) : Front α → Front α
  | incomplete => incomplete
  | refused e rest => refused e (rest ++ more)
  | whole a rest => whole a (rest ++ more)

theorem ofHeader_append {b more : Bytes}
    (decided : ofHeader size decode length content b ≠ .incomplete) :
    ofHeader size decode length content (b ++ more) =
      (ofHeader size decode length content b).followedBy more := by
  by_cases short : b.length < size
  · exact absurd (by rw [ofHeader, if_pos short]) decided
  have header : (b ++ more).take size = b.take size := List.take_append_of_le_length (by omega)
  have behind : (b ++ more).drop size = b.drop size ++ more :=
    List.drop_append_of_le_length (by omega)
  have long : ¬ (b ++ more).length < size := by simp only [List.length_append]; omega
  simp only [ofHeader, if_neg short, if_neg long, header, behind] at decided ⊢
  cases read : decode (b.take size) with
  | error e => rfl
  | ok h =>
    simp only [read] at decided ⊢
    by_cases missing : (b.drop size).length < length h
    · exact absurd (if_pos missing) decided
    rw [if_neg missing, if_neg (by simp only [List.length_append]; omega),
      List.take_append_of_le_length (by omega), List.drop_append_of_le_length (by omega)]
    rfl

/-- A whole frame with a header takes bytes away from the stream. -/
theorem length_rest_lt (header : 0 < size) {b rest : Bytes} {a : α}
    (front : ofHeader size decode length content b = .whole a rest) : rest.length < b.length := by
  unfold ofHeader at front
  split at front
  case isTrue => cases front
  case isFalse long =>
    split at front
    case h_1 => cases front
    case h_2 =>
      dsimp only at front
      split at front
      case isTrue => cases front
      case isFalse =>
        obtain ⟨-, rfl⟩ := Front.whole.inj front
        simp only [List.length_drop]
        omega

theorem ofHeader_eq_whole {header body rest : Bytes} {h : η} (sized : header.length = size)
    (read : decode header = .ok h) (filled : length h = body.length) :
    ofHeader size decode length content (header ++ body ++ rest) =
      .whole (content h body) rest := by
  have long : ¬ (header ++ body ++ rest).length < size := by simp only [List.length_append]; omega
  have front : (header ++ body ++ rest).take size = header := by
    rw [List.append_assoc, List.take_left' sized]
  have behind : (header ++ body ++ rest).drop size = body ++ rest := by
    rw [List.append_assoc, List.drop_left' sized]
  have enough : ¬ (body ++ rest).length < body.length := by simp only [List.length_append]; omega
  simp only [ofHeader, if_neg long, front, read, behind, filled, if_neg enough, List.take_left,
    List.drop_left]

end

/-- What is announced is what follows, if it can be announced at all. -/
theorem toNat_announced {n : Nat} (fits : n ≤ maxFramePayload) : (UInt32.ofNat n).toNat = n := by
  rw [UInt32.toNat_ofNat', Nat.mod_eq_of_lt]
  exact Nat.lt_of_le_of_lt fits (by decide)

theorem length_rest_request {b rest : Bytes} {a : Interface × Command}
    (front : request b = .whole a rest) : rest.length < b.length :=
  length_rest_lt (by decide) front

theorem request_frame {i : Interface} {c : Command} (fits : c.data.length ≤ maxFramePayload)
    (rest : Bytes) : request (c.frame i ++ rest) = .whole (i, c) rest := by
  have announced := toNat_announced fits
  exact ofHeader_eq_whole (RequestFrame.length_bytes _)
    (RequestFrame.decode_bytes (by rw [announced]; exact fits)) announced

theorem response_frame {r : Response} (fits : r.body.length ≤ maxFramePayload) (rest : Bytes) :
    response (r.frame ++ rest) = .whole r rest := by
  have announced := toNat_announced fits
  exact ofHeader_eq_whole (ResponseFrame.length_bytes _)
    (ResponseFrame.decode_bytes (by rw [announced]; exact fits)) announced

end Front

end KeyInjection
