-- SUMMARY: Objects of strings are read back as they were written.
import KeyInjection.Json.Parser
import KeyInjection.Json.Printer

/-!
# Reading back what was written

A string is written character by character, and each of them is read back as itself
(`readString_writeChar`). An object of strings is read back with the same members in the same order,
repeated names included (`parse?_objectText`).
-/

namespace KeyInjection.Json

/-! ## Strings -/

theorem hexDigit?_digit : ∀ n < 16, hexDigit? (Hex.digit n) = some n := by decide

/-- An escaped control character is read as the word that it was written as. -/
theorem hexWord?_control {n : Nat} (hn : n < 0x20) :
    hexWord? '0' '0' (Hex.digit (n / 16)) (Hex.digit (n % 16)) = some n := by
  have hhigh := hexDigit?_digit (n / 16) (by omega)
  have hlow := hexDigit?_digit (n % 16) (by omega)
  have hzero : hexDigit? '0' = some 0 := by decide
  rw [hexWord?, hzero, hhigh, hlow]
  show some _ = some _
  congr 1
  omega

theorem readString_writeChar (past : List Char) (c : Char) (rest : List Char) :
    readString .kept past (writeChar c ++ rest) = readString .kept (c :: past) rest := by
  unfold writeChar
  split
  case h_8 =>
    split
    case isTrue hcontrol =>
      have hlow : isLowSurrogate c.toNat = false := by
        rw [isLowSurrogate, decide_eq_false (by omega), Bool.false_and]
      have hhigh : isHighSurrogate c.toNat = false := by
        rw [isHighSurrogate, decide_eq_false (by omega), Bool.false_and]
      show readString .kept past ('\\' :: 'u' :: '0' :: '0' :: _ :: _ :: rest) = _
      rw [readString, hexWord?_control hcontrol]
      simp [hlow, hhigh]
    case isFalse hplain =>
      rw [List.singleton_append]
      rw [readString.eq_def]
      split
      case h_5 heq =>
        cases heq
        rw [if_neg hplain]
      all_goals simp_all
  all_goals simp [readString, escape?]

theorem readString_flatMap (past cs rest : List Char) :
    readString .kept past (cs.flatMap writeChar ++ '"' :: rest) =
      some (String.ofList (past.reverse ++ cs), rest) := by
  induction cs generalizing past with
  | nil => simp [readString]
  | cons c cs ih =>
    rw [List.flatMap_cons, List.append_assoc, readString_writeChar, ih]
    simp

/-- A written string is read back as itself. -/
theorem readString_writeString (s : String) (rest : List Char) :
    readString .kept [] (s.toList.flatMap writeChar ++ '"' :: rest) = some (s, rest) := by
  rw [readString_flatMap]
  simp

/-! ## Objects of strings -/

theorem skipBlanks_of_not_isBlank {c : Char} (hc : isBlank c = false) (rest : List Char) :
    skipBlanks (c :: rest) = c :: rest := by
  rw [skipBlanks, List.dropWhile_cons_of_neg (by simp [hc])]

theorem readValue_writeString (depth fuel : Nat) (s : String) (rest : List Char) :
    readValue .kept depth (fuel + 1) (writeString s ++ rest) = some (.string s, rest) := by
  rw [writeString, List.cons_append, List.append_assoc, readValue,
    skipBlanks_of_not_isBlank (by decide), List.singleton_append]
  show Option.map _ (readString .kept [] _) = _
  rw [readString_writeString]
  rfl

/-- The members that string members are read as. -/
def stringMembers (members : List (String × String)) : List (String × Json) :=
  members.map fun m => (m.1, .string m.2)

section Members

variable {careFor : String → Care} {m : String × String}

/-- Behind a member and a comma the next member is read. -/
theorem readMembers_comma (hkept : careFor m.1 = .kept) (depth fuel : Nat)
    (past : List (String × Json)) (rest : List Char) :
    readMembers .kept careFor depth (fuel + 2) past
        (writeString m.1 ++ ':' :: (writeString m.2 ++ ',' :: rest)) =
      readMembers .kept careFor depth (fuel + 1) ((m.1, .string m.2) :: past) rest := by
  have hquote := skipBlanks_of_not_isBlank (c := '"') (by decide)
  have hcolon := skipBlanks_of_not_isBlank (c := ':') (by decide)
  have hcomma := skipBlanks_of_not_isBlank (c := ',') (by decide)
  rw [writeString, List.cons_append, List.append_assoc, List.singleton_append, readMembers]
  simp only [hquote, readString_writeString, hcolon, hkept, readValue_writeString, hcomma]

/-- A member and a brace are the end. -/
theorem readMembers_brace (hkept : careFor m.1 = .kept) (depth fuel : Nat)
    (past : List (String × Json)) (rest : List Char) :
    readMembers .kept careFor depth (fuel + 2) past
        (writeString m.1 ++ ':' :: (writeString m.2 ++ '}' :: rest)) =
      some (.object ((m.1, .string m.2) :: past).reverse, rest) := by
  have hquote := skipBlanks_of_not_isBlank (c := '"') (by decide)
  have hcolon := skipBlanks_of_not_isBlank (c := ':') (by decide)
  have hbrace := skipBlanks_of_not_isBlank (c := '}') (by decide)
  rw [writeString, List.cons_append, List.append_assoc, List.singleton_append, readMembers]
  simp only [hquote, readString_writeString, hcolon, hkept, readValue_writeString, hbrace]

end Members

theorem writeMembers_cons_cons (m next : String × String) (members : List (String × String)) :
    writeMembers (m :: next :: members) =
      writeString m.1 ++ ':' :: (writeString m.2 ++ ',' :: writeMembers (next :: members)) := rfl

theorem readMembers_writeMembers (careFor : String → Care) (depth : Nat) {fuel : Nat}
    (past : List (String × Json)) (m : String × String) (members : List (String × String))
    (hkept : ∀ x ∈ m :: members, careFor x.1 = .kept) (rest : List Char)
    (hfuel : members.length + 1 < fuel) :
    readMembers .kept careFor depth fuel past (writeMembers (m :: members) ++ '}' :: rest) =
      some (.object (past.reverse ++ stringMembers (m :: members)), rest) := by
  obtain ⟨fuel, rfl⟩ : ∃ n, fuel = n + 2 := ⟨fuel - 2, by omega⟩
  induction members generalizing fuel past m with
  | nil =>
    rw [writeMembers, List.append_assoc, List.cons_append,
      readMembers_brace (hkept m List.mem_cons_self)]
    simp [stringMembers]
  | cons next members ih =>
    obtain ⟨hfirst, hlater⟩ := List.forall_mem_cons.1 hkept
    rw [List.length_cons] at hfuel
    obtain ⟨fuel, rfl⟩ : ∃ n, fuel = n + 1 := ⟨fuel - 1, by omega⟩
    rw [writeMembers_cons_cons, List.append_assoc, List.cons_append, List.append_assoc,
      List.cons_append, readMembers_comma hfirst, ih _ _ hlater _ (by omega)]
    simp [stringMembers]

/-- There are no more members than characters. -/
theorem length_le_writeMembers (members : List (String × String)) :
    members.length ≤ (writeMembers members).length := by
  induction members with
  | nil => exact Nat.le_refl _
  | cons m members ih =>
    cases members with
    | nil => simp [writeMembers, writeString]
    | cons next members =>
      rw [writeMembers_cons_cons]
      simp only [List.length_cons, List.length_append] at ih ⊢
      omega

/-- Members start with the quote of a name. -/
theorem exists_writeMembers_eq (m : String × String) (members : List (String × String)) :
    ∃ rest, writeMembers (m :: members) = '"' :: rest := by
  cases members with
  | nil => exact ⟨_, rfl⟩
  | cons next members => exact ⟨_, rfl⟩

/-- There is fuel enough for the members of an object. -/
theorem length_lt_fuelFor (members : List (String × String)) (cs : List Char) :
    members.length < fuelFor ('{' :: (writeMembers members ++ cs)) - 1 := by
  have := length_le_writeMembers members
  simp only [fuelFor, List.length_cons, List.length_append]
  omega

/-- An object of strings is read back with its members. -/
theorem parse?_objectText (members : List (String × String)) :
    parse? (objectText members) = some (.object (stringMembers members)) := by
  rw [parse?, objectText, String.toList_ofList, fuelFor, readValue,
    skipBlanks_of_not_isBlank (by decide)]
  cases members with
  | nil => rfl
  | cons m members =>
    obtain ⟨rest, hquote⟩ := exists_writeMembers_eq m members
    have hskip := skipBlanks_of_not_isBlank (c := '"') (by decide) (rest ++ ['}'])
    have hread := readMembers_writeMembers (fun _ => .kept) 126 [] m members (fun _ _ => rfl) []
      (length_lt_fuelFor (m :: members) ['}'])
    rw [hquote, List.cons_append] at hread ⊢
    simp only [hskip]
    exact congrArg complete hread

/-- So it is if only some members are kept, and all of its members are among these. -/
theorem parseMembers?_objectText {names : List String} {members : List (String × String)}
    (hnames : ∀ m ∈ members, m.1 ∈ names) :
    parseMembers? names (objectText members) = some (.object (stringMembers members)) := by
  rw [parseMembers?, objectText, String.toList_ofList]
  dsimp only
  rw [skipBlanks_of_not_isBlank (by decide)]
  cases members with
  | nil => rfl
  | cons m members =>
    obtain ⟨rest, hquote⟩ := exists_writeMembers_eq m members
    have hskip := skipBlanks_of_not_isBlank (c := '"') (by decide) (rest ++ ['}'])
    let careFor name := if names.contains name then Care.kept else Care.skipped
    have hkept : ∀ x ∈ m :: members, careFor x.1 = .kept := fun x hx =>
      if_pos (List.contains_iff_mem.2 (hnames x hx))
    have hfuel : (m :: members).length < fuelFor ('{' :: (writeMembers (m :: members) ++ ['}'])) :=
      Nat.lt_of_lt_of_le (length_lt_fuelFor _ _) (Nat.sub_le _ _)
    have hread := readMembers_writeMembers careFor 126 [] m members hkept [] hfuel
    rw [hquote, List.cons_append] at hread ⊢
    simp only [hskip]
    exact congrArg complete hread

end KeyInjection.Json
