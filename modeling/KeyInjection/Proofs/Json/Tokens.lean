-- SUMMARY: Strings and numbers of a JSON text are read as what they spell.
import KeyInjection.Proofs.Json.Grammar

/-!
# Reading strings and numbers

Strings and numbers are single tokens of a JSON text. That each is read as what it spells, and
nothing else is read as it, is said by a pair of lemmas for every part of a token: `read…_append`
for what the grammar allows, and `exists_…_of_read…` for what a reader has accepted.
-/

namespace KeyInjection.Json

/-! ## Strings -/

theorem readString_plain {c : Char} (hplain : 0x20 ≤ c.toNat) (hquote : c ≠ '"')
    (hbackslash : c ≠ '\\') (past rest : List Char) :
    readString .kept past (c :: rest) = readString .kept (c :: past) rest := by
  rw [readString.eq_def]
  split
  case h_2 heq => exact absurd (List.cons.inj heq).1 hquote
  case h_3 heq => exact absurd (List.cons.inj heq).1 hbackslash
  case h_4 heq => exact absurd (List.cons.inj heq).1 hbackslash
  case h_5 heq =>
    cases heq
    exact if_neg (Nat.not_lt.2 hplain)
  case h_1 heq => cases heq

theorem readString_escape {e c : Char} (hescape : escape? e = some c) (past rest : List Char) :
    readString .kept past ('\\' :: e :: rest) = readString .kept (c :: past) rest := by
  rw [readString.eq_def]
  split
  case h_3 heq =>
    cases heq
    cases hescape
  case h_4 heq =>
    cases heq
    rw [hescape]
  case h_5 hlonely heq =>
    cases heq
    exact absurd rfl (hlonely _ _ rfl)
  case h_1 heq => cases heq
  case h_2 heq => cases heq

theorem readString_word {a b c d : Char} {w : Nat} (hword : hexWord? a b c d = some w)
    (hlow : isLowSurrogate w = false) (hhigh : isHighSurrogate w = false) (past rest : List Char) :
    readString .kept past ('\\' :: 'u' :: a :: b :: c :: d :: rest) =
      readString .kept (Char.ofNat w :: past) rest := by
  rw [readString, hword]
  simp [hlow, hhigh]

theorem readString_pair {a b c d e f g h : Char} {w v : Nat} (hword : hexWord? a b c d = some w)
    (hhigh : isHighSurrogate w = true) (hword' : hexWord? e f g h = some v)
    (hlow : isLowSurrogate v = true) (past rest : List Char) :
    readString .kept past
        ('\\' :: 'u' :: a :: b :: c :: d :: '\\' :: 'u' :: e :: f :: g :: h :: rest) =
      readString .kept (joinSurrogates w v :: past) rest := by
  have hnot : isLowSurrogate w = false := by
    simp only [isHighSurrogate, isLowSurrogate, Bool.and_eq_true, decide_eq_true_eq,
      Bool.and_eq_false_iff, decide_eq_false_iff_not] at *
    omega
  rw [readString, hword]
  simp [hnot, hhigh, hword', hlow]

/-- A string that was spelled is read. -/
theorem readString_append {s text : List Char} (hspells : Spells s text) (past rest : List Char) :
    readString .kept past (text ++ '"' :: rest) =
      some (String.ofList (past.reverse ++ s), rest) := by
  induction hspells generalizing past with
  | nil => simp [readString]
  | plain hplain hquote hbackslash _ ih =>
    rw [List.cons_append, readString_plain hplain hquote hbackslash, ih]
    simp
  | escape hescape _ ih =>
    simp only [List.cons_append]
    rw [readString_escape hescape, ih]
    simp
  | word hword hlow hhigh _ ih =>
    simp only [List.cons_append]
    rw [readString_word hword hlow hhigh, ih]
    simp
  | pair hword hhigh hword' hlow _ ih =>
    simp only [List.cons_append]
    rw [readString_pair hword hhigh hword' hlow, ih]
    simp

/-- A string that is read was spelled. -/
theorem exists_spells_of_read {past cs rest : List Char} {s : String}
    (hread : readString .kept past cs = some (s, rest)) :
    ∃ t text, Spells t text ∧ s = String.ofList (past.reverse ++ t) ∧ cs = text ++ '"' :: rest := by
  -- What is read of the rest, with one character more in front.
  have hstep (front : List Char) {c : Char} {past cs : List Char}
      (hwrite : ∀ {t text}, Spells t text → Spells (c :: t) (front ++ text)) :
      (∃ t text, Spells t text ∧ s = String.ofList ((c :: past).reverse ++ t) ∧
        cs = text ++ '"' :: rest) →
      ∃ t text, Spells t text ∧ s = String.ofList (past.reverse ++ t) ∧
        front ++ cs = text ++ '"' :: rest := by
    rintro ⟨t, text, hspells, rfl, rfl⟩
    exact ⟨c :: t, front ++ text, hwrite hspells, by simp, by simp⟩
  fun_induction readString Care.kept past cs with
  | case2 past rest' =>
    cases hread
    exact ⟨[], [], .nil, by simp, rfl⟩
  | case7 past a b c d w hword hkept hlow hhigh e f g h rest' v hword' hlow' ih =>
    exact hstep ['\\', 'u', a, b, c, d, '\\', 'u', e, f, g, h]
      (fun hrest => .pair hword hhigh hword' hlow' hrest) (ih hread)
  | case10 past a b c d rest' w hword hkept hlow hhigh ih =>
    exact hstep ['\\', 'u', a, b, c, d]
      (fun hrest => .word hword (by simpa using hlow) (by simpa using hhigh) hrest) (ih hread)
  | case12 past e rest' hnot c hescape ih =>
    exact hstep ['\\', e] (fun hrest => .escape hescape hrest) (ih hread)
  | case14 past c rest' hquote hnot hlonely hplain ih =>
    have hbackslash : c ≠ '\\' := by
      rintro rfl
      cases rest' with
      | nil => cases hread
      | cons e rest' => exact hlonely e rest' rfl rfl
    exact hstep [c] (fun hrest => .plain (Nat.le_of_not_lt hplain) hquote hbackslash hrest)
      (ih hread)
  | case4 past a b c d rest' w hword hskipped => cases hskipped
  | _ => cases hread

/-! ## Digits -/

/-- The text does not go on with a digit. -/
def EndsDigits (rest : List Char) : Prop := ∀ c ∈ rest.head?, c.isDigit = false

/-- Nothing that belongs to a number follows: the text is at its end, or goes on with a blank or
with what comes behind a value. -/
def EndsValue (rest : List Char) : Prop :=
  ∀ c ∈ rest.head?, isBlank c = true ∨ c = ',' ∨ c = ']' ∨ c = '}'

theorem takeDigits_append {text rest : List Char} (hdigits : ∀ c ∈ text, c.isDigit = true)
    (hrest : EndsDigits rest) : takeDigits (text ++ rest) = (digitsOf text, rest) := by
  have hnone : rest.takeWhile Char.isDigit = [] ∧ rest.dropWhile Char.isDigit = rest := by
    cases rest with
    | nil => exact ⟨rfl, rfl⟩
    | cons c rest =>
      have hc := hrest c rfl
      exact ⟨List.takeWhile_cons_of_neg (by simp [hc]), List.dropWhile_cons_of_neg (by simp [hc])⟩
  rw [takeDigits, List.takeWhile_append_of_pos hdigits, List.dropWhile_append_of_pos hdigits,
    hnone.1, hnone.2, List.append_nil]
  rfl

/-- What is taken are digits. -/
theorem exists_digits_of_take {cs rest : List Char} {ds : List Nat}
    (htake : takeDigits cs = (ds, rest)) :
    ∃ text, (∀ c ∈ text, c.isDigit = true) ∧ ds = digitsOf text ∧ cs = text ++ rest := by
  obtain ⟨rfl, rfl⟩ := Prod.mk.inj htake
  exact ⟨cs.takeWhile Char.isDigit, List.all_eq_true.1 List.all_takeWhile, rfl,
    (List.takeWhile_append_dropWhile ..).symm⟩

theorem digitsOf_eq_nil {text : List Char} : digitsOf text = [] ↔ text = [] := List.map_eq_nil_iff

/-! ## Numbers -/

theorem readWhole_append {text rest : List Char} (hwhole : IsWhole text) (hrest : EndsDigits rest) :
    readWhole (text ++ rest) = some (digitsOf text, rest) := by
  cases hwhole with
  | zero => rfl
  | digits hdigits hhead =>
    have htake := takeDigits_append hdigits.2 hrest
    obtain ⟨c, text, rfl⟩ := List.exists_cons_of_ne_nil hdigits.1
    have hc : c ≠ '0' := fun hc => hhead (congrArg some hc)
    rw [List.cons_append] at htake ⊢
    rw [readWhole.eq_def]
    split
    case h_1 heq => exact absurd (List.cons.inj heq).1 hc
    case h_2 =>
      rw [htake]
      rfl

theorem exists_whole_of_read {cs rest : List Char} {ds : List Nat}
    (hread : readWhole cs = some (ds, rest)) :
    ∃ text, IsWhole text ∧ ds = digitsOf text ∧ cs = text ++ rest := by
  unfold readWhole at hread
  split at hread
  case h_1 =>
    cases hread
    exact ⟨['0'], .zero, rfl, rfl⟩
  case h_2 hzero =>
    split at hread
    case h_1 => cases hread
    case h_2 hsome htake =>
      cases hread
      obtain ⟨text, hdigits, rfl, rfl⟩ := exists_digits_of_take htake
      refine ⟨text, .digits ⟨fun hnil => hsome (digitsOf_eq_nil.2 hnil), hdigits⟩ ?_, rfl, rfl⟩
      intro hhead
      obtain ⟨later, rfl⟩ := List.head?_eq_some_iff.1 hhead
      exact hzero (later ++ rest) rfl

theorem readFraction_append {text rest : List Char} {ds : List Nat} (hfraction : IsFraction text ds)
    (hrest : EndsDigits rest) (hpoint : rest.head? ≠ some '.') :
    readFraction (text ++ rest) = some (ds, rest) := by
  cases hfraction with
  | none =>
    rw [List.nil_append, readFraction.eq_def]
    split
    case h_1 => exact absurd rfl hpoint
    case h_2 => rfl
  | @digits text hdigits =>
    have htake := takeDigits_append hdigits.2 hrest
    have hsome := mt digitsOf_eq_nil.1 hdigits.1
    rw [List.cons_append, readFraction, htake]
    split
    case h_1 heq => exact absurd (Prod.mk.inj heq).1 hsome
    case h_2 heq => rw [heq]

theorem exists_fraction_of_read {cs rest : List Char} {ds : List Nat}
    (hread : readFraction cs = some (ds, rest)) :
    ∃ text, IsFraction text ds ∧ cs = text ++ rest := by
  unfold readFraction at hread
  split at hread
  case h_1 =>
    split at hread
    case h_1 => cases hread
    case h_2 hsome htake =>
      cases hread
      obtain ⟨text, hdigits, rfl, rfl⟩ := exists_digits_of_take htake
      exact ⟨'.' :: text, .digits ⟨fun hnil => hsome (digitsOf_eq_nil.2 hnil), hdigits⟩, rfl⟩
  case h_2 =>
    cases hread
    exact ⟨[], .none, rfl⟩

theorem readExponentDigits_append {text rest : List Char} (hdigits : IsDigits text)
    (hrest : EndsDigits rest) (negative : Bool) :
    readExponentDigits negative (text ++ rest) =
      some (some (if negative then -(digitsValue (digitsOf text) : Int)
        else digitsValue (digitsOf text)), rest) := by
  have htake := takeDigits_append hdigits.2 hrest
  have hsome := mt digitsOf_eq_nil.1 hdigits.1
  rw [readExponentDigits, htake]
  split
  case h_1 heq => exact absurd (Prod.mk.inj heq).1 hsome
  case h_2 heq =>
    cases heq
    rfl

theorem exists_digits_of_readExponentDigits {cs rest : List Char} {negative : Bool}
    {scale : Option Int} (hread : readExponentDigits negative cs = some (scale, rest)) :
    ∃ text, IsDigits text ∧ cs = text ++ rest ∧
      scale = some (if negative then -(digitsValue (digitsOf text) : Int)
        else digitsValue (digitsOf text)) := by
  unfold readExponentDigits at hread
  split at hread
  case h_1 => cases hread
  case h_2 hsome htake =>
    cases hread
    obtain ⟨text, hdigits, rfl, rfl⟩ := exists_digits_of_take htake
    exact ⟨text, ⟨fun hnil => hsome (digitsOf_eq_nil.2 hnil), hdigits⟩, rfl, rfl⟩

theorem EndsValue.endsDigits {rest : List Char} (hrest : EndsValue rest) : EndsDigits rest := by
  intro c hc
  rcases hrest c hc with hblank | rfl | rfl | rfl
  · simp only [isBlank, Bool.or_eq_true, beq_iff_eq] at hblank
    rcases hblank with ((rfl | rfl) | rfl) | rfl <;> rfl
  all_goals rfl

theorem EndsValue.head_ne {rest : List Char} (hrest : EndsValue rest) {c : Char}
    (hc : c ∈ rest.head?) : c ≠ '.' ∧ c ≠ 'e' ∧ c ≠ 'E' := by
  rcases hrest c hc with hblank | rfl | rfl | rfl
  · simp only [isBlank, Bool.or_eq_true, beq_iff_eq] at hblank
    rcases hblank with ((rfl | rfl) | rfl) | rfl <;> decide
  all_goals decide

theorem readExponent_append {text rest : List Char} {scale : Option Int}
    (hexponent : IsExponent text scale) (hrest : EndsValue rest) :
    readExponent (text ++ rest) = some (scale, rest) := by
  cases hexponent with
  | none =>
    cases rest with
    | nil => rfl
    | cons c rest =>
      obtain ⟨-, hlower, hupper⟩ := hrest.head_ne rfl
      exact if_neg (not_or.2 ⟨hlower, hupper⟩)
  | @digits e text he hdigits =>
    have hread := readExponentDigits_append hdigits hrest.endsDigits false
    obtain ⟨c, text, rfl⟩ := List.exists_cons_of_ne_nil hdigits.1
    have hc := hdigits.2 c List.mem_cons_self
    have hplus : c ≠ '+' := by
      rintro rfl
      cases hc
    have hminus : c ≠ '-' := by
      rintro rfl
      cases hc
    rw [List.cons_append, readExponent, if_pos he]
    · exact hread
    · exact fun _ heq => absurd (List.cons.inj heq).1 hplus
    · exact fun _ heq => absurd (List.cons.inj heq).1 hminus
  | @plus e text he hdigits =>
    exact (if_pos he).trans (readExponentDigits_append hdigits hrest.endsDigits false)
  | @minus e text he hdigits =>
    exact (if_pos he).trans (readExponentDigits_append hdigits hrest.endsDigits true)

theorem exists_exponent_of_read {cs rest : List Char} {scale : Option Int}
    (hread : readExponent cs = some (scale, rest)) :
    ∃ text, IsExponent text scale ∧ cs = text ++ rest := by
  unfold readExponent at hread
  split at hread
  case h_1 e later =>
    split at hread
    case isTrue he =>
      split at hread
      all_goals
        obtain ⟨text, hdigits, rfl, rfl⟩ := exists_digits_of_readExponentDigits hread
      · exact ⟨e :: '+' :: text, .plus he hdigits, rfl⟩
      · exact ⟨e :: '-' :: text, .minus he hdigits, rfl⟩
      · exact ⟨e :: text, .digits he hdigits, rfl⟩
    case isFalse =>
      cases hread
      exact ⟨[], .none, rfl⟩
  case h_2 =>
    cases hread
    exact ⟨[], .none, rfl⟩

theorem IsExponent.endsDigits {text rest : List Char} {scale : Option Int}
    (hexponent : IsExponent text scale) (hrest : EndsValue rest) :
    EndsDigits (text ++ rest) ∧ (text ++ rest).head? ≠ some '.' := by
  have hletter {e : Char} {more : List Char} (he : e = 'e' ∨ e = 'E') :
      EndsDigits (e :: more) ∧ (e :: more).head? ≠ some '.' := by
    rcases he with rfl | rfl
    · exact ⟨by rintro c ⟨⟩; rfl, by simp⟩
    · exact ⟨by rintro c ⟨⟩; rfl, by simp⟩
  cases hexponent with
  | none => exact ⟨hrest.endsDigits, fun hpoint => (hrest.head_ne hpoint).1 rfl⟩
  | digits he _ => exact hletter he
  | plus he _ => exact hletter he
  | minus he _ => exact hletter he

theorem IsFraction.endsDigits {text rest : List Char} {ds : List Nat}
    (hfraction : IsFraction text ds) (hrest : EndsDigits rest) : EndsDigits (text ++ rest) := by
  cases hfraction with
  | none => exact hrest
  | digits _ =>
    rintro c ⟨⟩
    rfl

/-- A digit stands at the front of a whole part. -/
theorem IsWhole.head {text : List Char} (hwhole : IsWhole text) :
    ∃ c rest, text = c :: rest ∧ c.isDigit = true := by
  cases hwhole with
  | zero => exact ⟨'0', [], rfl, rfl⟩
  | digits hdigits _ =>
    obtain ⟨c, rest, rfl⟩ := List.exists_cons_of_ne_nil hdigits.1
    exact ⟨c, rest, rfl, hdigits.2 c List.mem_cons_self⟩

/-- The sign or a digit stands at the front of a number. -/
theorem IsNumber.head {n : JsonNumber} {text : List Char} (hnumber : IsNumber n text) :
    ∃ c rest, text = c :: rest ∧ (c = '-' ∨ c.isDigit = true) := by
  obtain @⟨negative, whole, fraction, exponent, _, _, _, hwhole, -, -, -⟩ := hnumber
  cases negative with
  | true => exact ⟨'-', _, rfl, .inl rfl⟩
  | false =>
    obtain ⟨c, rest, rfl, hc⟩ := hwhole.head
    exact ⟨c, _, rfl, .inr hc⟩

/-- The sign is told from a digit. -/
theorem head?_signOf (negative : Bool) {whole rest : List Char} (hwhole : IsWhole whole) :
    ((signOf negative ++ (whole ++ rest)).head? == some '-') = negative := by
  cases negative with
  | true => rfl
  | false =>
    obtain ⟨c, more, rfl, hc⟩ := hwhole.head
    have hminus : c ≠ '-' := by
      rintro rfl
      cases hc
    simpa [signOf] using hminus

/-- A number is read with its value, up to where it ends. -/
theorem readNumber_append {n : JsonNumber} {text rest : List Char} (hnumber : IsNumber n text)
    (hrest : EndsValue rest) : readNumber .kept (text ++ rest) = some (.number n, rest) := by
  obtain @⟨negative, whole, fraction, exponent, digits, scale, _, hwhole, hfraction, hexponent,
    hvalue⟩ := hnumber
  obtain ⟨hends, hpoint⟩ := hexponent.endsDigits hrest
  have hunsigned : (if negative then
      (signOf negative ++ (whole ++ (fraction ++ (exponent ++ rest)))).drop 1
      else signOf negative ++ (whole ++ (fraction ++ (exponent ++ rest)))) =
      whole ++ (fraction ++ (exponent ++ rest)) := by
    cases negative <;> rfl
  simp only [List.append_assoc]
  rw [readNumber, head?_signOf negative hwhole, hunsigned,
    readWhole_append hwhole (hfraction.endsDigits hends)]
  simp only [Option.bind_eq_bind, Option.bind_some, readFraction_append hfraction hends hpoint,
    readExponent_append hexponent hrest, hvalue]
  rfl

/-- What is read is a number. -/
theorem exists_number_of_read {cs rest : List Char} {v : Json}
    (hread : readNumber .kept cs = some (v, rest)) :
    ∃ n text, IsNumber n text ∧ v = .number n ∧ cs = text ++ rest := by
  simp only [readNumber, Option.bind_eq_bind, Option.bind_eq_some_iff] at hread
  obtain ⟨⟨ds, later⟩, hreadWhole, ⟨ds', later'⟩, hreadFraction, ⟨scale, later''⟩, hreadExponent, n,
    hvalue, hread⟩ := hread
  cases hread
  obtain ⟨whole, hwhole, rfl, hcs⟩ := exists_whole_of_read hreadWhole
  obtain ⟨fraction, hfraction, rfl⟩ := exists_fraction_of_read hreadFraction
  obtain ⟨exponent, hexponent, rfl⟩ := exists_exponent_of_read hreadExponent
  refine ⟨n, _, .of hwhole hfraction hexponent hvalue, rfl, ?_⟩
  cases hsign : cs.head? == some '-' with
  | true =>
    obtain ⟨more, rfl⟩ := List.head?_eq_some_iff.1 (beq_iff_eq.1 hsign)
    rw [hsign] at hcs
    simp only [signOf, if_true, List.append_assoc]
    exact congrArg ('-' :: ·) hcs
  | false =>
    rw [hsign] at hcs
    simpa [signOf] using hcs

end KeyInjection.Json
