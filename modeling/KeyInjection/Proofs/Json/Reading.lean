-- SUMMARY: A text is read as a value if and only if the grammar makes it a text of that value.
import KeyInjection.Proofs.Json.Tokens

/-!
# Reading JSON text

Whatever the grammar allows is read (`Phrase.isRead`), by induction on the phrase, and whatever is
read the grammar allows (`exists_phrase_of_read`), by induction on the fuel; so reading a text tells
the value that it is a text of, if there is one (`parse?_eq_some_iff`).
-/

namespace KeyInjection.Json

/-! ## Blanks -/

abbrev AreBlanks (blanks : List Char) : Prop := ∀ c ∈ blanks, isBlank c = true

theorem exists_blanks (cs : List Char) :
    ∃ blanks, AreBlanks blanks ∧ cs = blanks ++ skipBlanks cs :=
  ⟨cs.takeWhile isBlank, List.all_eq_true.1 List.all_takeWhile,
    (List.takeWhile_append_dropWhile ..).symm⟩

theorem skipBlanks_append {blanks : List Char} (hblanks : AreBlanks blanks) {c : Char}
    (hc : isBlank c = false) (rest : List Char) : skipBlanks (blanks ++ c :: rest) = c :: rest := by
  rw [skipBlanks, List.dropWhile_append_of_pos hblanks,
    List.dropWhile_cons_of_neg (by rw [hc]; exact Bool.false_ne_true)]

theorem skipBlanks_eq_nil {cs : List Char} : skipBlanks cs = [] ↔ AreBlanks cs := by
  constructor
  · intro hnil
    obtain ⟨blanks, hblanks, hcs⟩ := exists_blanks cs
    rw [hnil, List.append_nil] at hcs
    rwa [hcs]
  · intro hblanks
    have hskip : (cs ++ []).dropWhile isBlank = [] := List.dropWhile_append_of_pos hblanks
    rwa [List.append_nil] at hskip

theorem endsValue_append {blanks : List Char} (hblanks : AreBlanks blanks) {c : Char}
    (hc : c = ',' ∨ c = ']' ∨ c = '}') (rest : List Char) : EndsValue (blanks ++ c :: rest) := by
  cases blanks with
  | nil =>
    rintro _ ⟨⟩
    exact .inr hc
  | cons b blanks =>
    rintro _ ⟨⟩
    exact .inl (hblanks b List.mem_cons_self)

theorem endsValue_of_areBlanks {blanks : List Char} (hblanks : AreBlanks blanks) :
    EndsValue blanks := fun c hc => .inl (hblanks c (List.mem_of_mem_head? hc))

/-! ## Layouts -/

namespace Laid

variable {first second tokens : List (List Char)} {text text' token blanks : List Char}

theorem append (hfirst : Laid first text) (hsecond : Laid second text') :
    Laid (first ++ second) (text ++ text') := by
  induction hfirst with
  | nil => exact hsecond
  | cons hblanks _ ih =>
    simp only [List.cons_append, List.append_assoc]
    exact .cons hblanks ih

theorem uncons (hlaid : Laid (token :: tokens) text) :
    ∃ blanks later, AreBlanks blanks ∧ Laid tokens later ∧ text = blanks ++ (token ++ later) := by
  cases hlaid with
  | cons hblanks hlater => exact ⟨_, _, hblanks, hlater, rfl⟩

theorem singleton (hlaid : Laid [token] text) :
    ∃ blanks, AreBlanks blanks ∧ text = blanks ++ token := by
  obtain ⟨blanks, later, hblanks, hlater, rfl⟩ := hlaid.uncons
  cases hlater
  exact ⟨blanks, hblanks, by rw [List.append_nil]⟩

theorem split (hlaid : Laid (first ++ second) text) :
    ∃ front back, text = front ++ back ∧ Laid first front ∧ Laid second back := by
  induction first generalizing text with
  | nil => exact ⟨[], text, rfl, .nil, hlaid⟩
  | cons token first ih =>
    obtain ⟨blanks, later, hblanks, hlater, rfl⟩ := hlaid.uncons
    obtain ⟨front, back, rfl, hfront, hback⟩ := ih hlater
    exact ⟨blanks ++ (token ++ front), back, by simp, .cons hblanks hfront, hback⟩

/-- More blanks in front of the first token. -/
theorem blanks_append (hblanks : AreBlanks blanks) (hlaid : Laid (token :: tokens) text) :
    Laid (token :: tokens) (blanks ++ text) := by
  obtain ⟨blanks', later, hblanks', hlater, rfl⟩ := hlaid.uncons
  rw [← List.append_assoc]
  exact .cons (List.forall_mem_append.2 ⟨hblanks, hblanks'⟩) hlater

theorem length_le (hlaid : Laid tokens text) (htokens : [] ∉ tokens) :
    tokens.length ≤ text.length := by
  induction hlaid with
  | nil => exact Nat.le_refl _
  | @cons blanks token later tokens _ _ ih =>
    obtain ⟨htoken, hlater⟩ := not_or.1 fun hmem => htokens (List.mem_cons.2 hmem)
    have hlength := List.length_pos_iff.2 (Ne.symm htoken)
    have := ih hlater
    simp only [List.length_cons, List.length_append]
    omega

end Laid

/-! ## Phrases are read -/

/-- The first character of a phrase, by which its reader goes. -/
theorem Phrase.head {depth : Nat} {part : Part} {tokens : List (List Char)}
    (hphrase : Phrase depth part tokens) :
    ∃ c token later, tokens = (c :: token) :: later ∧ isBlank c = false ∧ c ≠ ']' ∧ c ≠ '}' := by
  induction hphrase with
  | nullWord | trueWord | falseWord | string | emptyArray | array | emptyObject | object
  | lastMember | member => exact ⟨_, _, _, rfl, by decide, by decide, by decide⟩
  | number hnumber =>
    obtain ⟨c, token, rfl, hc⟩ := hnumber.head
    refine ⟨c, token, [], rfl, ?_⟩
    rcases hc with rfl | hc
    · decide
    · refine ⟨?_, ?_, ?_⟩
      · cases hblank : isBlank c with
        | false => rfl
        | true =>
          simp only [isBlank, Bool.or_eq_true, beq_iff_eq] at hblank
          rcases hblank with ((rfl | rfl) | rfl) | rfl <;> cases hc
      all_goals
        rintro rfl
        cases hc
  | lastItem _ ih =>
    obtain ⟨c, token, later, rfl, hc⟩ := ih
    exact ⟨c, token, _, rfl, hc⟩
  | item _ _ ih _ =>
    obtain ⟨c, token, later, rfl, hc⟩ := ih
    exact ⟨c, token, _, rfl, hc⟩

theorem Phrase.nil_notMem {depth : Nat} {part : Part} {tokens : List (List Char)}
    (hphrase : Phrase depth part tokens) : [] ∉ tokens := by
  induction hphrase with
  | nullWord | trueWord | falseWord | string | emptyArray | emptyObject => simp [quoted]
  | number hnumber =>
    obtain ⟨c, token, rfl, -⟩ := hnumber.head
    simp
  | array _ ih | object _ ih | lastItem _ ih | lastMember _ _ ih => simp [quoted, ih]
  | item _ _ ih ih' | member _ _ _ ih ih' => simp [quoted, ih, ih']

/-- What reading a part comes to, with what follows the part. -/
def Part.IsRead (depth fuel : Nat) (cs rest : List Char) : Part → Prop
  | .value v => readValue .kept depth fuel cs = some (v, rest)
  | .items vs => ∀ past, readItems .kept depth fuel past cs =
      some (.array (past.reverse ++ vs), rest)
  | .members ms => ∀ past, readMembers .kept (fun _ => .kept) depth fuel past cs =
      some (.object (past.reverse ++ ms), rest)

/-- Behind an opening bracket or brace the reader skips blanks and looks for the closing one. -/
theorem Laid.skipBlanks {c : Char} {token text : List Char} {tokens : List (List Char)}
    (hc : isBlank c = false) (hlaid : Laid ((c :: token) :: tokens) text) (rest : List Char) :
    ∃ later, Json.skipBlanks (text ++ rest) = c :: later ++ rest ∧
      Laid ((c :: token) :: tokens) (c :: later) := by
  cases hlaid with
  | @cons blanks _ later _ hblanks hlater =>
    refine ⟨token ++ later, ?_, .cons (show AreBlanks [] from nofun) hlater⟩
    simp only [List.append_assoc, List.cons_append]
    exact skipBlanks_append hblanks hc _

section

variable {depth fuel : Nat} {blanks : List Char} (hblanks : AreBlanks blanks)
include hblanks

/-- A number is told by its first character. -/
theorem readValue_number {c : Char} (hc : c = '-' ∨ c.isDigit = true) (hblank : isBlank c = false)
    (cs : List Char) :
    readValue .kept depth (fuel + 1) (blanks ++ c :: cs) = readNumber .kept (c :: cs) := by
  rw [readValue, skipBlanks_append hblanks hblank]
  split
  case h_7 => rfl
  all_goals
    rename_i heq
    cases heq
    exact absurd hc (by decide)

theorem readValue_array {c : Char} {cs later : List Char} (hskip : skipBlanks cs = c :: later)
    (hc : c ≠ ']') :
    readValue .kept (depth + 1) (fuel + 1) (blanks ++ '[' :: cs) =
      readItems .kept depth fuel [] (c :: later) := by
  rw [readValue, skipBlanks_append hblanks (by decide)]
  simp only [inner?, hskip]
  split
  case h_1 heq => exact absurd (List.cons.inj heq).1 hc
  case h_2 => rfl

theorem readValue_object {c : Char} {cs later : List Char} (hskip : skipBlanks cs = c :: later)
    (hc : c ≠ '}') :
    readValue .kept (depth + 1) (fuel + 1) (blanks ++ '{' :: cs) =
      readMembers .kept (fun _ => .kept) depth fuel [] (c :: later) := by
  rw [readValue, skipBlanks_append hblanks (by decide)]
  simp only [inner?, hskip]
  split
  case h_1 heq => exact absurd (List.cons.inj heq).1 hc
  case h_2 => rfl

end

theorem exists_fuel {n fuel : Nat} (hfuel : 2 * (n + 1) ≤ fuel) :
    ∃ m, fuel = m + 1 ∧ 2 * n ≤ m := ⟨fuel - 1, by omega, by omega⟩

/-- Whatever the grammar allows is read. -/
theorem Phrase.isRead {depth : Nat} {part : Part} {tokens : List (List Char)}
    (hphrase : Phrase depth part tokens) {text : List Char} (hlaid : Laid tokens text)
    {rest : List Char} (hrest : EndsValue rest) {fuel : Nat} (hfuel : 2 * tokens.length ≤ fuel) :
    part.IsRead depth fuel (text ++ rest) rest := by
  induction hphrase generalizing text rest fuel with
  | nullWord | trueWord | falseWord =>
    obtain ⟨fuel, rfl, -⟩ := exists_fuel hfuel
    obtain ⟨blanks, hblanks, rfl⟩ := hlaid.singleton
    rw [Part.IsRead, readValue, List.append_assoc]
    simp only [List.cons_append, List.nil_append]
    rw [skipBlanks_append hblanks (by decide)]
    rfl
  | string hspells =>
    obtain ⟨fuel, rfl, -⟩ := exists_fuel hfuel
    obtain ⟨blanks, hblanks, rfl⟩ := hlaid.singleton
    rw [Part.IsRead, readValue, quoted, List.append_assoc, List.cons_append,
      skipBlanks_append hblanks (by decide), List.append_assoc, List.singleton_append]
    simp only [readString_append hspells]
    rfl
  | number hnumber =>
    obtain ⟨fuel, rfl, -⟩ := exists_fuel hfuel
    obtain ⟨blanks, hblanks, rfl⟩ := hlaid.singleton
    have hread := readNumber_append hnumber hrest
    obtain ⟨c, token, htoken, hc⟩ := hnumber.head
    obtain ⟨_, _, _, htoken', hblank, -⟩ := (Phrase.number hnumber : Phrase 0 _ _).head
    subst htoken
    cases htoken'
    rw [Part.IsRead, List.append_assoc, List.cons_append, readValue_number hblanks hc hblank]
    exact hread
  | emptyArray | emptyObject =>
    obtain ⟨fuel, rfl, -⟩ := exists_fuel hfuel
    obtain ⟨blanks, _, hblanks, hclosing, rfl⟩ := hlaid.uncons
    obtain ⟨blanks', hblanks', rfl⟩ := hclosing.singleton
    rw [Part.IsRead, readValue]
    simp only [List.append_assoc, List.cons_append, List.nil_append]
    rw [skipBlanks_append hblanks (by decide)]
    simp only [inner?]
    rw [skipBlanks_append hblanks' (by decide)]
    rfl
  | array hitems ih =>
    obtain ⟨fuel, rfl, hless⟩ := exists_fuel hfuel
    obtain ⟨blanks, _, hblanks, hlater, rfl⟩ := hlaid.uncons
    obtain ⟨c, token, later, rfl, hc, hclosing, -⟩ := hitems.head
    obtain ⟨text, hskip, hlater⟩ := hlater.skipBlanks hc rest
    simp only [Part.IsRead, List.append_assoc, List.cons_append, List.nil_append]
    rw [readValue_array hblanks hskip hclosing]
    exact ih hlater hrest hless []
  | object hmembers ih =>
    obtain ⟨fuel, rfl, hless⟩ := exists_fuel hfuel
    obtain ⟨blanks, _, hblanks, hlater, rfl⟩ := hlaid.uncons
    obtain ⟨c, token, later, rfl, hc, -, hclosing⟩ := hmembers.head
    obtain ⟨text, hskip, hlater⟩ := hlater.skipBlanks hc rest
    simp only [Part.IsRead, List.append_assoc, List.cons_append, List.nil_append]
    rw [readValue_object hblanks hskip hclosing]
    exact ih hlater hrest hless []
  | lastItem hvalue ih =>
    rw [List.length_append] at hfuel
    obtain ⟨fuel, rfl, hless⟩ := exists_fuel hfuel
    obtain ⟨front, _, rfl, hfront, hback⟩ := hlaid.split
    obtain ⟨blanks, hblanks, rfl⟩ := hback.singleton
    have hread := ih hfront (endsValue_append hblanks (c := ']') (by simp) rest) hless
    intro past
    simp only [List.append_assoc, List.cons_append, List.nil_append]
    rw [readItems, hread]
    dsimp only
    rw [skipBlanks_append hblanks (by decide)]
    simp
  | item hvalue hlater ih ih' =>
    rw [List.length_append] at hfuel
    obtain ⟨fuel, rfl, hless⟩ := exists_fuel hfuel
    rw [Nat.add_eq] at hless
    obtain ⟨front, _, rfl, hfront, hback⟩ := hlaid.split
    obtain ⟨blanks, text, hblanks, htext, rfl⟩ := hback.uncons
    have hread : readValue .kept _ fuel _ = _ :=
      ih hfront (endsValue_append hblanks (c := ',') (by simp) (text ++ rest))
        (show 2 * _ ≤ fuel by omega)
    have hreadLater := ih' htext hrest (show 2 * _ ≤ fuel by omega)
    intro past
    simp only [List.append_assoc, List.cons_append, List.nil_append]
    rw [readItems, hread]
    dsimp only
    rw [skipBlanks_append hblanks (by decide)]
    simp only [hreadLater (_ :: past), List.reverse_cons, List.append_assoc, List.singleton_append]
  | lastMember hname hvalue ih =>
    obtain ⟨fuel, rfl, hless⟩ := exists_fuel hfuel
    simp only [List.length_cons, List.length_append, List.length_nil] at hless
    obtain ⟨blanks, _, hblanks, hcolon, rfl⟩ := hlaid.uncons
    obtain ⟨blanks', _, hblanks', htext, rfl⟩ := hcolon.uncons
    obtain ⟨front, _, rfl, hfront, hback⟩ := htext.split
    obtain ⟨blanks'', hblanks'', rfl⟩ := hback.singleton
    have hread : readValue .kept _ fuel _ = _ :=
      ih hfront (endsValue_append hblanks'' (c := '}') (by simp) rest)
        (show 2 * _ ≤ fuel by omega)
    intro past
    simp only [quoted, List.append_assoc, List.cons_append, List.nil_append]
    rw [readMembers, skipBlanks_append hblanks (by decide)]
    simp only [readString_append hname, List.reverse_nil, List.nil_append]
    rw [skipBlanks_append hblanks' (by decide)]
    simp only [hread]
    rw [skipBlanks_append hblanks'' (by decide)]
    simp
  | member hname hvalue hlater ih ih' =>
    obtain ⟨fuel, rfl, hless⟩ := exists_fuel hfuel
    simp only [List.length_cons, List.length_append] at hless
    obtain ⟨blanks, _, hblanks, hcolon, rfl⟩ := hlaid.uncons
    obtain ⟨blanks', _, hblanks', htext, rfl⟩ := hcolon.uncons
    obtain ⟨front, _, rfl, hfront, hback⟩ := htext.split
    obtain ⟨blanks'', text, hblanks'', hlast, rfl⟩ := hback.uncons
    have hread : readValue .kept _ fuel _ = _ :=
      ih hfront (endsValue_append hblanks'' (c := ',') (by simp) (text ++ rest))
        (show 2 * _ ≤ fuel by omega)
    have hreadLater := ih' hlast hrest (show 2 * _ ≤ fuel by omega)
    intro past
    simp only [quoted, List.append_assoc, List.cons_append, List.nil_append]
    rw [readMembers, skipBlanks_append hblanks (by decide)]
    simp only [readString_append hname, List.reverse_nil, List.nil_append]
    rw [skipBlanks_append hblanks' (by decide)]
    simp only [hread]
    rw [skipBlanks_append hblanks'' (by decide)]
    simp only [hreadLater (_ :: past), List.reverse_cons, List.append_assoc, List.singleton_append]

/-! ## What is read are phrases -/

/-- The front of a text, up to a rest, is a phrase. -/
def Wrote (depth : Nat) (part : Part) (cs rest : List Char) : Prop :=
  ∃ tokens text, Phrase depth part tokens ∧ Laid tokens text ∧ cs = text ++ rest

/-- Whatever the readers accept with some fuel are phrases. -/
structure ReadsPhrases (fuel : Nat) : Prop where
  value : ∀ {depth cs v rest}, readValue .kept depth fuel cs = some (v, rest) →
    Wrote depth (.value v) cs rest
  items : ∀ {depth past cs v rest}, readItems .kept depth fuel past cs = some (v, rest) →
    ∃ vs, v = .array (past.reverse ++ vs) ∧ Wrote depth (.items vs) cs rest
  members : ∀ {depth past cs v rest},
    readMembers .kept (fun _ => .kept) depth fuel past cs = some (v, rest) →
      ∃ ms, v = .object (past.reverse ++ ms) ∧ Wrote depth (.members ms) cs rest

section

variable {depth fuel : Nat} {part part' : Part} {blanks cs rest : List Char}

theorem Wrote.single {token : List Char} (hblanks : AreBlanks blanks)
    (hphrase : Phrase depth part [token]) : Wrote depth part (blanks ++ (token ++ rest)) rest :=
  ⟨[token], blanks ++ token, hphrase, by simpa using Laid.cons hblanks .nil, by simp⟩

/-- An opening bracket or brace and a closing one. -/
theorem Wrote.pair {c d : Char} {blanks' : List Char} (hblanks : AreBlanks blanks)
    (hblanks' : AreBlanks blanks') (hphrase : Phrase depth part [[c], [d]]) :
    Wrote depth part (blanks ++ c :: (blanks' ++ d :: rest)) rest :=
  ⟨[[c], [d]], blanks ++ ([c] ++ (blanks' ++ [d])), hphrase,
    .cons hblanks (by simpa using Laid.cons hblanks' .nil), by simp⟩

/-- One token more in front. -/
theorem Wrote.cons {depth' : Nat} {blanks' : List Char} (token : List Char)
    (hblanks : AreBlanks blanks) (hblanks' : AreBlanks blanks') (hwrote : Wrote depth part cs rest)
    (hphrase : ∀ {tokens}, Phrase depth part tokens → Phrase depth' part' (token :: tokens)) :
    Wrote depth' part' (blanks ++ (token ++ (blanks' ++ cs))) rest := by
  obtain ⟨tokens, text, hpart, hlaid, rfl⟩ := hwrote
  obtain ⟨c, _, later, rfl, -⟩ := hpart.head
  exact ⟨_, _, hphrase hpart, .cons hblanks (hlaid.blanks_append hblanks'), by simp⟩

/-- A value and the bracket or brace that closes what it is the last of. -/
theorem Wrote.close {v : Json} {c : Char} (hwrote : Wrote depth (.value v) cs (blanks ++ c :: rest))
    (hblanks : AreBlanks blanks)
    (hphrase : ∀ {tokens}, Phrase depth (.value v) tokens → Phrase depth part (tokens ++ [[c]])) :
    Wrote depth part cs rest := by
  obtain ⟨tokens, text, hvalue, hlaid, rfl⟩ := hwrote
  have hclosing : Laid [[c]] (blanks ++ [c]) := by simpa using Laid.cons hblanks .nil
  exact ⟨_, _, hphrase hvalue, hlaid.append hclosing, by simp⟩

/-- A value, a comma and more. -/
theorem Wrote.comma {v : Json} {later : List Char}
    (hwrote : Wrote depth (.value v) cs (blanks ++ ',' :: later)) (hblanks : AreBlanks blanks)
    (hlater : Wrote depth part later rest)
    (hphrase : ∀ {tokens tokens'}, Phrase depth (.value v) tokens → Phrase depth part tokens' →
      Phrase depth part' (tokens ++ [','] :: tokens')) :
    Wrote depth part' cs rest := by
  obtain ⟨tokens, text, hvalue, hlaid, rfl⟩ := hwrote
  obtain ⟨tokens', text', hpart, hlaid', rfl⟩ := hlater
  exact ⟨_, _, hphrase hvalue hpart, hlaid.append (.cons hblanks hlaid'), by simp⟩

variable {v : Json}

theorem ReadsPhrases.readValue (hreads : ReadsPhrases fuel)
    (hread : readValue .kept depth (fuel + 1) cs = some (v, rest)) :
    Wrote depth (.value v) cs rest := by
  obtain ⟨blanks, hblanks, hcs⟩ := exists_blanks cs
  rw [hcs]
  rw [Json.readValue] at hread
  split at hread
  case h_1 heq =>
    obtain ⟨⟨s, _⟩, hstring, hread⟩ := Option.map_eq_some_iff.1 hread
    cases hread
    obtain ⟨t, text, hspells, rfl, htext⟩ := exists_spells_of_read hstring
    rw [heq, htext]
    have hsingle : Wrote depth (.value _) (blanks ++ (quoted text ++ rest)) rest :=
      .single hblanks (.string hspells)
    simpa [quoted] using hsingle
  case h_2 later heq =>
    rw [heq]
    cases depth with
    | zero => cases hread
    | succ depth =>
      obtain ⟨blanks', hblanks', hlater⟩ := exists_blanks later
      rw [hlater]
      simp only [inner?] at hread
      split at hread
      case h_1 hclosing =>
        cases hread
        rw [hclosing]
        exact .pair hblanks hblanks' .emptyArray
      case h_2 =>
        obtain ⟨vs, rfl, hitems⟩ := hreads.items hread
        exact hitems.cons ['['] hblanks hblanks' .array
  case h_3 later heq =>
    rw [heq]
    cases depth with
    | zero => cases hread
    | succ depth =>
      obtain ⟨blanks', hblanks', hlater⟩ := exists_blanks later
      rw [hlater]
      simp only [inner?] at hread
      split at hread
      case h_1 hclosing =>
        cases hread
        rw [hclosing]
        exact .pair hblanks hblanks' .emptyObject
      case h_2 =>
        obtain ⟨ms, rfl, hmembers⟩ := hreads.members hread
        exact hmembers.cons ['{'] hblanks hblanks' .object
  case h_4 heq =>
    cases hread
    rw [heq]
    exact .single hblanks .nullWord
  case h_5 heq =>
    cases hread
    rw [heq]
    exact .single hblanks .trueWord
  case h_6 heq =>
    cases hread
    rw [heq]
    exact .single hblanks .falseWord
  case h_7 =>
    obtain ⟨n, text, hnumber, rfl, htext⟩ := exists_number_of_read hread
    rw [htext]
    exact .single hblanks (.number hnumber)

theorem ReadsPhrases.readItems {past : List Json} (hreads : ReadsPhrases fuel)
    (hread : readItems .kept depth (fuel + 1) past cs = some (v, rest)) :
    ∃ vs, v = .array (past.reverse ++ vs) ∧ Wrote depth (.items vs) cs rest := by
  rw [Json.readItems] at hread
  split at hread
  case h_1 => cases hread
  case h_2 item later hvalue =>
    obtain ⟨blanks, hblanks, hlater⟩ := exists_blanks later
    have hwrote := hreads.value hvalue
    rw [hlater] at hwrote
    split at hread
    case h_1 heq =>
      obtain ⟨vs, rfl, hitems⟩ := hreads.items hread
      rw [heq] at hwrote
      exact ⟨item :: vs, by simp, hwrote.comma hblanks hitems .item⟩
    case h_2 heq =>
      cases hread
      rw [heq] at hwrote
      exact ⟨[item], by simp, hwrote.close hblanks .lastItem⟩
    case h_3 => cases hread

theorem ReadsPhrases.readMembers {past : List (String × Json)} (hreads : ReadsPhrases fuel)
    (hread : readMembers .kept (fun _ => .kept) depth (fuel + 1) past cs = some (v, rest)) :
    ∃ ms, v = .object (past.reverse ++ ms) ∧ Wrote depth (.members ms) cs rest := by
  obtain ⟨blanks, hblanks, hcs⟩ := exists_blanks cs
  rw [Json.readMembers] at hread
  split at hread
  case h_2 => cases hread
  case h_1 later heq =>
    rw [heq] at hcs
    split at hread
    case h_1 => cases hread
    case h_2 name colon hname =>
      obtain ⟨s, text, hspells, rfl, htext⟩ := exists_spells_of_read hname
      obtain ⟨blanks', hblanks', hcolon⟩ := exists_blanks colon
      split at hread
      case h_2 => cases hread
      case h_1 behind heq =>
        rw [heq] at hcolon
        split at hread
        case h_1 => cases hread
        case h_2 m after hvalue =>
          obtain ⟨blanks'', hblanks'', hafter⟩ := exists_blanks after
          obtain ⟨tokens, body, hphrase, hlaid, hbehind⟩ := hreads.value hvalue
          split at hread
          case h_1 heq =>
            obtain ⟨ms, rfl, tokens', text', hmembers, hlaid', hmore⟩ := hreads.members hread
            refine ⟨(_, m) :: ms, by simp, _, _, .member hspells hphrase hmembers,
              .cons hblanks (.cons hblanks' (hlaid.append (.cons hblanks'' hlaid'))), ?_⟩
            rw [hcs, htext, hcolon, hbehind, hafter, heq, hmore]
            simp [quoted]
          case h_2 heq =>
            cases hread
            refine ⟨[(_, m)], by simp, _, _, .lastMember hspells hphrase,
              .cons hblanks (.cons hblanks' (hlaid.append (.cons hblanks'' .nil))), ?_⟩
            rw [hcs, htext, hcolon, hbehind, hafter, heq]
            simp [quoted]
          case h_3 => cases hread

end

theorem readsPhrases (fuel : Nat) : ReadsPhrases fuel := by
  induction fuel with
  | zero => exact ⟨nofun, nofun, nofun⟩
  | succ fuel ih => exact ⟨ih.readValue, ih.readItems, ih.readMembers⟩

/-! ## Texts -/

/-- A text is read as a value if and only if it is a text of that value. -/
theorem parse?_eq_some_iff {text : String} {v : Json} : parse? text = some v ↔ IsText v text := by
  constructor
  · intro hparse
    rw [parse?, complete.eq_def] at hparse
    split at hparse
    case h_2 => cases hparse
    case h_1 v' rest hread =>
      split at hparse
      case isFalse => cases hparse
      case isTrue hblanks =>
        cases hparse
        obtain ⟨tokens, body, hphrase, hlaid, htext⟩ := (readsPhrases _).value hread
        exact ⟨tokens, hphrase, body, rest, hlaid, skipBlanks_eq_nil.1 hblanks, htext⟩
  · rintro ⟨tokens, hphrase, body, blanks, hlaid, hblanks, htext⟩
    have hlength := hlaid.length_le hphrase.nil_notMem
    have hread : readValue .kept maxDepth (fuelFor text.toList) text.toList = some (v, blanks) := by
      rw [htext]
      refine hphrase.isRead hlaid (endsValue_of_areBlanks hblanks) ?_
      rw [fuelFor, List.length_append]
      omega
    rw [parse?, hread]
    exact if_pos (skipBlanks_eq_nil.2 hblanks)

end KeyInjection.Json
