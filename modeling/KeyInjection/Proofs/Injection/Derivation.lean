-- SUMMARY: The key files of any response, or the reason why there are none.
import KeyInjection.Proofs.Injection.KeyFiles

/-!
# Deriving key files

Of the seven fields of a response, two can keep the key files from being made: those that must be
hexadecimal, the first of them first (`deriveKeyFiles_eq`). So what is said of hexadecimal texts
says what comes of any response (`deriveKeyFiles_exact`).
-/

namespace KeyInjection.Injection

variable {response : ProvisioningResponse} {kbpk signature : Bytes}

/-- The key files of a response in which the two hexadecimal fields stand for the given bytes. -/
def filesHolding (response : ProvisioningResponse) (kbpk signature : Bytes) : List KeyFile := [
  ⟨"rki_hsm.crt", textBytes response.hsmCert⟩,
  ⟨"rki_kbpk.bin", kbpk⟩,
  ⟨"rki_kbpk.sig", signature⟩,
  ⟨"rki_sred.tr31", textBytes response.sredTr31⟩,
  ⟨"rki_sred.iksn", textBytes response.sredIksn⟩,
  ⟨"rki_pin.tr31", textBytes response.pinTr31⟩,
  ⟨"rki_pin.iksn", textBytes response.pinIksn⟩]

theorem deriveKeyFiles_eq (response : ProvisioningResponse) :
    deriveKeyFiles response =
      match Hex.decode response.kbpk with
      | .error cause => .error ("rki_kbpk.bin", .hexDecode cause)
      | .ok kbpk =>
        match Hex.decode response.kbpkSig with
        | .error cause => .error ("rki_kbpk.sig", .hexDecode cause)
        | .ok signature => .ok (filesHolding response kbpk signature) := by
  simp only [deriveKeyFiles, keyFields, List.mapM_cons, List.mapM_nil, KeyField.derive]
  cases Hex.decode response.kbpk with
  | error cause => rfl
  | ok kbpk => cases Hex.decode response.kbpkSig <;> rfl

theorem deriveKeyFiles_eq_ok_iff {files : List KeyFile} :
    deriveKeyFiles response = .ok files ↔
      ∃ kbpk signature, Hex.decode response.kbpk = .ok kbpk ∧
        Hex.decode response.kbpkSig = .ok signature ∧
        files = filesHolding response kbpk signature := by
  rw [deriveKeyFiles_eq]
  cases Hex.decode response.kbpk with
  | error cause => simp
  | ok kbpk =>
    cases Hex.decode response.kbpkSig with
    | error cause => simp
    | ok signature => simp [eq_comm]

theorem deriveKeyFiles_eq_error_iff {e : String × Error} :
    deriveKeyFiles response = .error e ↔
      (∃ cause, Hex.decode response.kbpk = .error cause ∧ e = ("rki_kbpk.bin", .hexDecode cause)) ∨
      ∃ kbpk cause, Hex.decode response.kbpk = .ok kbpk ∧
        Hex.decode response.kbpkSig = .error cause ∧ e = ("rki_kbpk.sig", .hexDecode cause) := by
  rw [deriveKeyFiles_eq]
  cases Hex.decode response.kbpk with
  | error cause => simp [eq_comm]
  | ok kbpk =>
    cases Hex.decode response.kbpkSig with
    | error cause => simp [eq_comm]
    | ok signature => simp

theorem exists_deriveKeyFiles_iff (response : ProvisioningResponse) :
    (∃ files, deriveKeyFiles response = .ok files) ↔
      Hex.IsHex response.kbpk ∧ Hex.IsHex response.kbpkSig := by
  constructor
  · rintro ⟨files, hfiles⟩
    obtain ⟨kbpk, signature, hkbpk, hsignature, -⟩ := deriveKeyFiles_eq_ok_iff.1 hfiles
    exact ⟨Hex.isHex_of_decode hkbpk, Hex.isHex_of_decode hsignature⟩
  · rintro ⟨hkbpk, hsignature⟩
    obtain ⟨kbpk, hkbpk, -⟩ := Hex.exists_decode hkbpk
    obtain ⟨signature, hsignature, -⟩ := Hex.exists_decode hsignature
    exact ⟨_, deriveKeyFiles_eq_ok_iff.2 ⟨kbpk, signature, hkbpk, hsignature, rfl⟩⟩

/-- Key files can be made of a response if, and only if, two fields are hexadecimal. They are then
the seven key files in order; five hold the texts of their fields, and the other two are the byte
strings whose hexadecimal forms the two fields are but for the case of the letters, half as long.
Otherwise the first of the two that is not hexadecimal is reported, with the reason. The other five
fields have no influence on whether it works and on what is reported. -/
theorem deriveKeyFiles_exact (response : ProvisioningResponse) :
    let readable (text : String) :=
      (textBytes text).length % 2 = 0 ∧ ∀ b ∈ textBytes text, Hex.IsDigit b
    ((∃ files, deriveKeyFiles response = .ok files) ↔
      readable response.kbpk ∧ readable response.kbpkSig) ∧
    (∀ files, deriveKeyFiles response = .ok files →
      ∃ kbpk signature, files = filesHolding response kbpk signature ∧
        files.map (·.name) = keyFiles ∧
        2 * kbpk.length = (textBytes response.kbpk).length ∧
        Hex.encode kbpk = response.kbpk.toLower ∧
        2 * signature.length = (textBytes response.kbpkSig).length ∧
        Hex.encode signature = response.kbpkSig.toLower) ∧
    (∀ kbpk signature, Hex.encode kbpk = response.kbpk.toLower →
      Hex.encode signature = response.kbpkSig.toLower →
        deriveKeyFiles response = .ok (filesHolding response kbpk signature)) ∧
    (∀ name e, deriveKeyFiles response = .error (name, e) →
      ∃ cause, e = .hexDecode cause ∧
        (name = "rki_kbpk.bin" ∧ Hex.Refuses response.kbpk cause ∨
          name = "rki_kbpk.sig" ∧ readable response.kbpk ∧
            Hex.Refuses response.kbpkSig cause)) ∧
    ∀ other, other.kbpk = response.kbpk → other.kbpkSig = response.kbpkSig →
      ((∃ files, deriveKeyFiles other = .ok files) ↔
        ∃ files, deriveKeyFiles response = .ok files) ∧
      ∀ e, deriveKeyFiles other = .error e ↔ deriveKeyFiles response = .error e := by
  intro readable
  have hreadable (text : String) : readable text ↔ Hex.IsHex text := (Hex.isHex_iff text).symm
  refine ⟨?_, ?_, ?_, ?_, ?_⟩
  · rw [exists_deriveKeyFiles_iff, hreadable, hreadable]
  · intro files hfiles
    obtain ⟨kbpk, signature, hkbpk, hsignature, rfl⟩ := deriveKeyFiles_eq_ok_iff.1 hfiles
    exact ⟨kbpk, signature, rfl, rfl, Hex.length_of_decode hkbpk, Hex.decode_eq_ok_iff.1 hkbpk,
      Hex.length_of_decode hsignature, Hex.decode_eq_ok_iff.1 hsignature⟩
  · intro kbpk signature hkbpk hsignature
    exact deriveKeyFiles_eq_ok_iff.2 ⟨kbpk, signature, Hex.decode_eq_ok_iff.2 hkbpk,
      Hex.decode_eq_ok_iff.2 hsignature, rfl⟩
  · intro name e herror
    obtain ⟨cause, hkbpk, he⟩ | ⟨kbpk, cause, hkbpk, hsignature, he⟩ :=
      deriveKeyFiles_eq_error_iff.1 herror
    · cases he
      exact ⟨cause, rfl, .inl ⟨rfl, Hex.refuses_of_decode hkbpk⟩⟩
    · cases he
      exact ⟨cause, rfl, .inr ⟨rfl, (hreadable _).2 (Hex.isHex_of_decode hkbpk),
        Hex.refuses_of_decode hsignature⟩⟩
  · intro other hkbpk hsignature
    refine ⟨?_, fun e => ?_⟩
    · rw [exists_deriveKeyFiles_iff, exists_deriveKeyFiles_iff, hkbpk, hsignature]
    · rw [deriveKeyFiles_eq_error_iff, deriveKeyFiles_eq_error_iff, hkbpk, hsignature]

/-- With letters in either case the bytes are the same; with another letter in the second field,
that field is reported. -/
theorem deriveKeyFiles_exact_letters :
    let response : ProvisioningResponse := ⟨"", "00a1Ff", "DE", "", "", "", ""⟩
    let unreadable : ProvisioningResponse := { response with kbpkSig := "DG" }
    deriveKeyFiles response = .ok (filesHolding response [0x00, 0xa1, 0xff] [0xde]) ∧
      deriveKeyFiles unreadable =
        .error ("rki_kbpk.sig", .hexDecode (.invalidCharacter 'G' 1)) ∧
      Hex.Refuses "DG" (.invalidCharacter 'G' 1) := by
  intro response unreadable
  obtain ⟨-, -, hspelled, -⟩ := deriveKeyFiles_exact response
  obtain ⟨-, -, -, hreported, -⟩ := deriveKeyFiles_exact unreadable
  have hkbpk : Hex.decode "00a1Ff" = .ok [0x00, 0xa1, 0xff] := by rfl
  have hsignature : Hex.decode "DG" = .error (.invalidCharacter 'G' 1) := by rfl
  have herror : deriveKeyFiles unreadable =
      .error ("rki_kbpk.sig", .hexDecode (.invalidCharacter 'G' 1)) :=
    deriveKeyFiles_eq_error_iff.2 (.inr ⟨_, _, hkbpk, hsignature, rfl⟩)
  refine ⟨hspelled _ _ (by decide +kernel) (by decide +kernel), herror, ?_⟩
  obtain ⟨cause, hcause, ⟨hname, -⟩ | ⟨-, -, hrefuses⟩⟩ := hreported _ _ herror
  · exact absurd hname (by decide)
  · cases hcause
    exact hrefuses

end KeyInjection.Injection
