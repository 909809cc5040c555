-- SUMMARY: Which bytes are frames of commands, and what a reader finds at the front of a stream.
import KeyInjection.Stream.Frame

/-!
# Request frames

`IsFrame` lays the bytes of a frame out one after the other, without a reader or a writer:

* `isFrame_frame` says that what a client writes for a command is a frame of it;
* `IsFrame.request_append` and `Front.isFrame_of_request` say that a reader takes a command from the
  front of a stream if and only if a frame of it stands there;
* `IsRefused.request` and `Front.isRefused_of_request` say that it refuses just the headers that no
  frame has.

Runs of frames (`AreFrames`) have one reading: of two runs at the front of a stream, one continues
the other.
-/

namespace KeyInjection

/-! ## Layout -/

/-- The header of a request frame: the interface, the four bytes of the command's header, three
reserved bytes of any value, and four bytes for a length. -/
def headerBytes (interface : UInt8) (h : Header) (reserved length : Bytes) : Bytes :=
  [interface, h.cla, h.ins, h.p1, h.p2] ++ reserved ++ length

/-- The bytes are a frame of the command: a header that tells the length of the data, which fits
into a frame, and the data. -/
def IsFrame (i : Interface) (c : Command) (b : Bytes) : Prop :=
  c.data.length ≤ maxFramePayload ∧ ∃ reserved length : Bytes,
    reserved.length = 3 ∧ length.length = 4 ∧ Bytes.ofLittleEndian length = c.data.length ∧
      b = headerBytes i.code c.header reserved length ++ c.data

/-- The bytes start with a header that no frame has: of no interface, or with a length that does not
fit. -/
def IsRefused (b : Bytes) : Prop :=
  ∃ (interface : UInt8) (h : Header) (reserved length rest : Bytes),
    reserved.length = 3 ∧ length.length = 4 ∧
      b = headerBytes interface h reserved length ++ rest ∧
      ((∀ i : Interface, interface ≠ i.code) ∨ maxFramePayload < Bytes.ofLittleEndian length)

/-- Frames of the commands, one after the other. -/
inductive AreFrames : List (Interface × Command) → Bytes → Prop where
  | nil : AreFrames [] []
  | cons {i : Interface} {c : Command} {frame rest : Bytes}
      {commands : List (Interface × Command)} (hframe : IsFrame i c frame)
      (hrest : AreFrames commands rest) : AreFrames ((i, c) :: commands) (frame ++ rest)

variable {i : Interface} {c : Command} {b frame rest : Bytes}

@[simp] theorem length_headerBytes {interface : UInt8} {h : Header} {reserved length : Bytes}
    (hreserved : reserved.length = 3) (hlength : length.length = 4) :
    (headerBytes interface h reserved length).length = RequestFrame.size := by
  simp [headerBytes, hreserved, hlength, RequestFrame.size]

/-- Any twelve bytes are laid out as a header. -/
theorem exists_headerBytes (hlength : RequestFrame.size ≤ b.length) :
    ∃ (interface : UInt8) (h : Header) (reserved length : Bytes), reserved.length = 3 ∧
      length.length = 4 ∧ b.take RequestFrame.size = headerBytes interface h reserved length := by
  match b with
  | interface :: cla :: ins :: p1 :: p2 :: rest =>
    have hrest : 7 ≤ rest.length := by
      simp only [RequestFrame.size, List.length_cons] at hlength
      omega
    refine ⟨interface, ⟨cla, ins, p1, p2⟩, rest.take 3, (rest.drop 3).take 4, ?_, ?_, ?_⟩
    · rw [List.length_take]
      omega
    · rw [List.length_take, List.length_drop]
      omega
    · show interface :: cla :: ins :: p1 :: p2 :: rest.take (3 + 4) = _
      rw [List.take_add]
      rfl
  | [] | [_] | [_, _] | [_, _, _] | [_, _, _, _] => simp [RequestFrame.size] at hlength

/-! ## Headers are read as they are laid out -/

theorem Interface.ofCode?_eq_some {interface : UInt8}
    (hcode : Interface.ofCode? interface = some i) :
    interface = i.code := by
  unfold Interface.ofCode? at hcode
  split at hcode <;> cases hcode <;> rfl

theorem Bytes.toNat_word32 {length : Bytes} (hlength : length.length = 4) :
    (Bytes.word32 length).toNat = Bytes.ofLittleEndian length := by
  have hlt := Bytes.ofLittleEndian_lt length
  rw [hlength] at hlt
  rw [Bytes.word32, List.take_of_length_le (Nat.le_of_eq hlength)]
  exact UInt32.toNat_ofNat_of_lt' hlt

/-- The reserved bytes are not looked at. -/
theorem decode_headerBytes (interface : UInt8) (h : Header) {reserved length : Bytes}
    (hreserved : reserved.length = 3) (hlength : length.length = 4) :
    RequestFrame.decode (headerBytes interface h reserved length) =
      match Interface.ofCode? interface with
      | none => .error .invalidEncoding
      | some i =>
        if maxFramePayload < Bytes.ofLittleEndian length then .error .invalidLength
        else .ok ⟨i, h, Bytes.word32 length⟩ := by
  rw [← Bytes.toNat_word32 hlength]
  match reserved, hreserved with
  | [_, _, _], _ =>
    show (if length.length < 4 then _ else _) = _
    rw [if_neg (by omega)]
    rfl

/-! ## Fronts of a stream -/

namespace Front

theorem request_of_short (hshort : b.length < RequestFrame.size) : request b = .incomplete :=
  if_pos hshort

theorem request_headerBytes (interface : UInt8) (h : Header) {reserved length : Bytes}
    (hreserved : reserved.length = 3) (hlength : length.length = 4) (rest : Bytes) :
    request (headerBytes interface h reserved length ++ rest) =
      match Interface.ofCode? interface with
      | none => .refused .invalidEncoding rest
      | some i =>
        if maxFramePayload < Bytes.ofLittleEndian length then .refused .invalidLength rest
        else if rest.length < Bytes.ofLittleEndian length then .incomplete
        else .whole (i, ⟨h, rest.take (Bytes.ofLittleEndian length)⟩)
          (rest.drop (Bytes.ofLittleEndian length)) := by
  have hsize : (headerBytes interface h reserved length).length = RequestFrame.size :=
    length_headerBytes hreserved hlength
  have hlong : ¬ (headerBytes interface h reserved length ++ rest).length < RequestFrame.size := by
    rw [List.length_append, hsize]
    omega
  rw [request, ofHeader, if_neg hlong, List.take_left' hsize, List.drop_left' hsize,
    decode_headerBytes interface h hreserved hlength]
  cases Interface.ofCode? interface with
  | none => rfl
  | some i =>
    dsimp only
    by_cases hlarge : maxFramePayload < Bytes.ofLittleEndian length
    · rw [if_pos hlarge, if_pos hlarge]
    · rw [if_neg hlarge, if_neg hlarge]
      simp only [Bytes.toNat_word32 hlength]

/-- What a reader takes from a stream has a frame there; what it refuses has no frame's header. -/
theorem request_spec (b : Bytes) :
    match request b with
    | .incomplete => True
    | .refused _ _ => IsRefused b
    | .whole (i, c) rest => ∃ frame, IsFrame i c frame ∧ b = frame ++ rest := by
  by_cases hshort : b.length < RequestFrame.size
  · rw [request_of_short hshort]
    trivial
  obtain ⟨interface, h, reserved, length, hreserved, hlength, hheader⟩ :=
    exists_headerBytes (Nat.le_of_not_lt hshort)
  obtain ⟨rest, rfl⟩ : ∃ rest, b = headerBytes interface h reserved length ++ rest :=
    ⟨b.drop RequestFrame.size, by rw [← hheader, List.take_append_drop]⟩
  have hrefused (hbad : (∀ i : Interface, interface ≠ i.code) ∨
      maxFramePayload < Bytes.ofLittleEndian length) :
      IsRefused (headerBytes interface h reserved length ++ rest) :=
    ⟨interface, h, reserved, length, rest, hreserved, hlength, rfl, hbad⟩
  rw [request_headerBytes interface h hreserved hlength]
  cases hcode : Interface.ofCode? interface with
  | none =>
    refine hrefused (.inl fun i hi => ?_)
    rw [hi, Interface.ofCode?_code] at hcode
    cases hcode
  | some i =>
    cases Interface.ofCode?_eq_some hcode
    dsimp only
    by_cases hlarge : maxFramePayload < Bytes.ofLittleEndian length
    · rw [if_pos hlarge]
      exact hrefused (.inr hlarge)
    rw [if_neg hlarge]
    by_cases hmissing : rest.length < Bytes.ofLittleEndian length
    · rw [if_pos hmissing]
      trivial
    rw [if_neg hmissing]
    have hdata : (rest.take (Bytes.ofLittleEndian length)).length = Bytes.ofLittleEndian length :=
      List.length_take_of_le (Nat.le_of_not_lt hmissing)
    refine ⟨headerBytes i.code h reserved length ++ rest.take (Bytes.ofLittleEndian length),
      ⟨by rw [hdata]; omega, reserved, length, hreserved, hlength, hdata.symm, rfl⟩, ?_⟩
    rw [List.append_assoc, List.take_append_drop]

theorem isFrame_of_request (hfront : request b = .whole (i, c) rest) :
    ∃ frame, IsFrame i c frame ∧ b = frame ++ rest := by
  have hspec := request_spec b
  rwa [hfront] at hspec

theorem isRefused_of_request {e : CodecError} (hfront : request b = .refused e rest) :
    IsRefused b := by
  have hspec := request_spec b
  rwa [hfront] at hspec

end Front

theorem IsRefused.request (hrefused : IsRefused b) :
    ∃ e rest, Front.request b = .refused e rest := by
  obtain ⟨interface, h, reserved, length, rest, hreserved, hlength, rfl, hbad⟩ := hrefused
  rw [Front.request_headerBytes interface h hreserved hlength]
  cases hcode : Interface.ofCode? interface with
  | none => exact ⟨_, _, rfl⟩
  | some j =>
    rcases hbad with hnone | hlarge
    · exact absurd (Interface.ofCode?_eq_some hcode) (hnone j)
    · exact ⟨_, _, if_pos hlarge⟩

/-- A command with a frame at the front of a stream is what a reader takes from it. -/
theorem IsFrame.request_append (hframe : IsFrame i c frame) (rest : Bytes) :
    Front.request (frame ++ rest) = .whole (i, c) rest := by
  obtain ⟨hfits, reserved, length, hreserved, hlength, hsize, rfl⟩ := hframe
  rw [List.append_assoc, Front.request_headerBytes _ _ hreserved hlength, Interface.ofCode?_code]
  simp only [hsize, Nat.not_lt.2 hfits, if_false, List.length_append, List.take_left,
    List.drop_left]
  exact if_neg (by omega)

/-- What a client writes for a command that fits into a frame is a frame of it. -/
theorem isFrame_frame (i : Interface) (hfits : c.data.length ≤ maxFramePayload) :
    IsFrame i c (c.frame i) := by
  refine ⟨hfits, [0, 0, 0], Bytes.ofWord32 (UInt32.ofNat c.data.length), rfl, by simp, ?_, rfl⟩
  rw [Bytes.ofWord32, Bytes.ofLittleEndian_littleEndian, Front.toNat_announced hfits]
  exact Nat.mod_eq_of_lt (Nat.lt_of_le_of_lt hfits (by decide))

/-! ## Runs of frames -/

/-- No frame stands at the front of the bytes. -/
def IsUnframed (b : Bytes) : Prop := ∀ i c frame, IsFrame i c frame → ¬ frame <+: b

theorem isUnframed_of_request (hfront : ∀ x rest, Front.request b ≠ .whole x rest) :
    IsUnframed b := by
  rintro i c frame hframe ⟨rest, rfl⟩
  exact hfront _ _ (hframe.request_append rest)

/-- A run of frames that nothing continues has every other run at the front of the same stream as
its beginning. -/
theorem AreFrames.longest {commands commands' : List (Interface × Command)} {frames frames' : Bytes}
    (hframes : AreFrames commands frames) (hframes' : AreFrames commands' frames')
    (hrest : IsUnframed rest) (hfront : frames' <+: frames ++ rest) :
    commands' <+: commands ∧ frames' <+: frames := by
  induction hframes' generalizing commands frames with
  | nil => exact ⟨List.nil_prefix, List.nil_prefix⟩
  | @cons i c frame' later' _ hframe' _ ih =>
    obtain ⟨more, hmore⟩ := hfront
    have hread := hframe'.request_append (later' ++ more)
    rw [← List.append_assoc, hmore] at hread
    cases hframes with
    | nil =>
      refine absurd ⟨later' ++ more, ?_⟩ (hrest i c _ hframe')
      rw [← List.append_assoc, hmore]
      rfl
    | @cons _ _ frame later _ hframe hlater =>
      rw [List.append_assoc, hframe.request_append] at hread
      obtain ⟨hsame, hbehind⟩ := Front.whole.inj hread
      cases hsame
      have hequal : frame = frame' := by
        rw [List.append_assoc, List.append_assoc, hbehind] at hmore
        exact (List.append_cancel_right hmore).symm
      subst hequal
      obtain ⟨hcommands, hframes⟩ := ih hlater ⟨more, hbehind.symm⟩
      exact ⟨List.cons_prefix_cons.2 ⟨rfl, hcommands⟩, (List.prefix_append_right_inj _).2 hframes⟩

end KeyInjection
