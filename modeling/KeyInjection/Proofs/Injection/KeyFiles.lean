-- SUMMARY: What the key files hold, by name, and which of them is reported when one cannot be made.
import KeyInjection.Injection.KeyFiles
import KeyInjection.Proofs.Text.Hex

/-!
# Contents of key files

Either every key file can be made, and then `contentOf` is what each of them holds, or the first of
them, in order, that cannot be made is the one that is reported.
-/

namespace KeyInjection.Injection

/-! ## Fallible maps over a list -/

theorem mapM_eq_ok {f : α → Except ε β} {l : List α} {out : List β} (hok : l.mapM f = .ok out) :
    l.map f = out.map .ok := by
  induction l generalizing out with
  | nil =>
    cases hok
    rfl
  | cons a rest ih =>
    rw [List.mapM_cons] at hok
    cases ha : f a with
    | error e =>
      rw [ha] at hok
      cases hok
    | ok b =>
      cases hrest : rest.mapM f with
      | error e =>
        rw [ha, hrest] at hok
        cases hok
      | ok bs =>
        rw [ha, hrest] at hok
        cases hok
        rw [List.map_cons, List.map_cons, ha, ih hrest]

theorem mapM_eq_error {f : α → Except ε β} {l : List α} {e : ε} (herror : l.mapM f = .error e) :
    ∃ before a after, l = before ++ a :: after ∧ (∀ b ∈ before, ∃ c, f b = .ok c) ∧
      f a = .error e := by
  induction l with
  | nil => cases herror
  | cons a rest ih =>
    rw [List.mapM_cons] at herror
    cases ha : f a with
    | error e' =>
      rw [ha] at herror
      cases herror
      exact ⟨[], a, rest, rfl, by simp, ha⟩
    | ok b =>
      cases hrest : rest.mapM f with
      | ok bs =>
        rw [ha, hrest] at herror
        cases herror
      | error e' =>
        rw [ha, hrest] at herror
        cases herror
        obtain ⟨before, x, after, rfl, hbefore, hx⟩ := ih hrest
        refine ⟨a :: before, x, after, rfl, ?_, hx⟩
        intro y hy
        rcases List.mem_cons.1 hy with rfl | hy
        · exact ⟨b, ha⟩
        · exact hbefore y hy

theorem mapM_of_forall_ok {f : α → Except ε β} {g : α → β} {l : List α}
    (hok : ∀ a ∈ l, f a = .ok (g a)) : l.mapM f = .ok (l.map g) := by
  induction l with
  | nil => rfl
  | cons a rest ih =>
    rw [List.mapM_cons, hok a (List.mem_cons_self ..),
      ih fun b hb => hok b (List.mem_cons_of_mem _ hb)]
    rfl

/-! ## Key files -/

/-- The content that the field of a response gives a key file. -/
def KeyField.content (k : KeyField) (response : ProvisioningResponse) : Bytes :=
  match k.derive response with
  | .ok file => file.data
  | .error _ => []

def contentOf (response : ProvisioningResponse) (name : String) : Bytes :=
  match keyFields.find? (·.name == name) with
  | some k => k.content response
  | none => []

/-- No two key files have one name. -/
theorem contentOf_name {k : KeyField} (hk : k ∈ keyFields) (response : ProvisioningResponse) :
    contentOf response k.name = k.content response := by
  simp only [keyFields, List.mem_cons, List.not_mem_nil, or_false] at hk
  rcases hk with rfl | rfl | rfl | rfl | rfl | rfl | rfl <;> rfl

theorem KeyField.derive_eq_ok {k : KeyField} {response : ProvisioningResponse} {file : KeyFile}
    (hok : k.derive response = .ok file) : file = ⟨k.name, k.content response⟩ := by
  have hcontent : k.content response = file.data := by rw [KeyField.content, hok]
  rw [hcontent]
  unfold KeyField.derive at hok
  split at hok
  case h_1 =>
    cases hok
    rfl
  case h_2 =>
    split at hok
    case h_1 =>
      cases hok
      rfl
    case h_2 => cases hok

theorem KeyField.derive_eq_error {k : KeyField} {response : ProvisioningResponse} {name : String}
    {e : Error} (herror : k.derive response = .error (name, e)) :
    name = k.name ∧ k.encoding = .hex ∧
      ∃ cause, Hex.decode (k.field response) = .error cause ∧ e = .hexDecode cause := by
  unfold KeyField.derive at herror
  split at herror
  case h_1 => cases herror
  case h_2 hencoding =>
    split at herror
    case h_1 => cases herror
    case h_2 cause hdecode =>
      cases herror
      exact ⟨rfl, hencoding, cause, hdecode, rfl⟩

/-- If all key files can be made, each holds its content. -/
theorem deriveKeyFiles_eq_ok {response : ProvisioningResponse} {files : List KeyFile}
    (hok : deriveKeyFiles response = .ok files) :
    files = keyFiles.map (fun name => ⟨name, contentOf response name⟩) ∧
      ∀ k ∈ keyFields, k.derive response = .ok ⟨k.name, contentOf response k.name⟩ := by
  have hmap := mapM_eq_ok hok
  have hderive : ∀ k ∈ keyFields, k.derive response = .ok ⟨k.name, contentOf response k.name⟩ := by
    intro k hk
    have hmem : k.derive response ∈ files.map .ok := hmap ▸ List.mem_map_of_mem hk
    obtain ⟨file, -, hfile⟩ := List.mem_map.1 hmem
    rw [← hfile, KeyField.derive_eq_ok hfile.symm, contentOf_name hk]
  refine ⟨?_, hderive⟩
  have hcontents : files.map (Except.ok (ε := String × Error)) =
      (keyFiles.map fun name => KeyFile.mk name (contentOf response name)).map .ok := by
    rw [← hmap, keyFiles, List.map_map, List.map_map]
    exact List.map_congr_left hderive
  exact (List.map_inj_right fun _ _ h => Except.ok.inj h).1 hcontents

/-- If not all key files can be made, the first that cannot is reported. -/
theorem deriveKeyFiles_eq_error {response : ProvisioningResponse} {name : String} {e : Error}
    (herror : deriveKeyFiles response = .error (name, e)) :
    ∃ before k after cause, keyFields = before ++ k :: after ∧
      (∀ earlier ∈ before, ∃ file, earlier.derive response = .ok file) ∧ k.encoding = .hex ∧
      Hex.decode (k.field response) = .error cause ∧ name = k.name ∧ e = .hexDecode cause := by
  obtain ⟨before, k, after, hfields, hbefore, hk⟩ := mapM_eq_error herror
  obtain ⟨rfl, hencoding, cause, hdecode, rfl⟩ := KeyField.derive_eq_error hk
  exact ⟨before, k, after, cause, hfields, hbefore, hencoding, hdecode, rfl, rfl⟩

def KeyField.contentLength (k : KeyField) (response : ProvisioningResponse) : Nat :=
  match k.encoding with
  | .text => (textBytes (k.field response)).length
  | .hex => (textBytes (k.field response)).length / 2

theorem KeyField.contentLength_le (k : KeyField) (response : ProvisioningResponse) :
    k.contentLength response ≤ (textBytes (k.field response)).length := by
  unfold contentLength
  split
  · exact Nat.le_refl _
  · exact Nat.div_le_self _ 2

/-- Key files can be made of a response in which the hexadecimal fields can be read, and their
lengths depend on those of the fields only. -/
theorem deriveKeyFiles_of_isHex {response : ProvisioningResponse}
    (hhex : ∀ k ∈ keyFields, k.encoding = .hex → Hex.IsHex (k.field response)) :
    deriveKeyFiles response = .ok (keyFiles.map fun name => ⟨name, contentOf response name⟩) ∧
      ∀ k ∈ keyFields, (contentOf response k.name).length = k.contentLength response := by
  have hderive : ∀ k ∈ keyFields, ∃ data, k.derive response = .ok ⟨k.name, data⟩ ∧
      data.length = k.contentLength response := by
    intro k hk
    unfold KeyField.derive KeyField.contentLength
    cases hencoding : k.encoding with
    | text => exact ⟨_, rfl, rfl⟩
    | hex =>
      obtain ⟨data, hdata, hlength⟩ := Hex.exists_decode (hhex k hk hencoding)
      rw [hdata]
      exact ⟨data, rfl, hlength⟩
  have hcontent : ∀ k ∈ keyFields, ∀ data, k.derive response = .ok ⟨k.name, data⟩ →
      contentOf response k.name = data := by
    intro k hk data hdata
    rw [contentOf_name hk, KeyField.content, hdata]
  constructor
  · rw [deriveKeyFiles, keyFiles, List.map_map]
    refine mapM_of_forall_ok fun k hk => ?_
    obtain ⟨data, hdata, -⟩ := hderive k hk
    rw [hdata, Function.comp_apply, hcontent k hk data hdata]
  · intro k hk
    obtain ⟨data, hdata, hlength⟩ := hderive k hk
    rwa [hcontent k hk data hdata]

end KeyInjection.Injection
