-- SUMMARY: The progress that transfers report, piece by piece.
import KeyInjection.Channel.Script
import KeyInjection.Proofs.Number.Rounding
import KeyInjection.Proofs.Transfer.Download
import KeyInjection.Proofs.Transfer.Moves
import KeyInjection.Proofs.Transfer.Reports
import KeyInjection.Proofs.Transfer.Sources

/-!
# Progress of transfers

Downloads, uploads of a buffer and uploads from any source go at their pace, from the selection of
the file to the end or up to the piece that failed. So what they publish keeps the law of reports:
`ReportsRegularly` states it of a record and of the pieces that the record has moved.
-/

namespace KeyInjection

variable {ε σ τ : Type}

/-! ## Progress -/

/-- The progress of a transfer of `total` bytes: the counts increase and stay within the total, and
if the transfer is completed and at least one granularity long, the last count is the total. -/
structure Progresses (granularity total : Nat) (completed : Bool) (counts : List Nat) : Prop where
  increasing : counts.Pairwise (· < ·)
  bounded : ∀ n ∈ counts, 0 < n ∧ n ≤ total
  last : completed = true → granularity ≤ total → 0 < total → counts.getLast? = some total

theorem KeepsPace.progresses {granularity total : Nat} {sizes counts : List Nat} {completed : Bool}
    (hkeeps : KeepsPace granularity sizes completed counts) (hroom : sizes.sum ≤ total)
    (hall : completed = true → sizes.sum = total) :
    Progresses granularity total completed counts where
  increasing := (List.pairwise_cons.1 hkeeps.increasing).2
  bounded := fun n hn =>
    ⟨(List.pairwise_cons.1 hkeeps.increasing).1 n hn,
      Nat.le_trans (le_sum_of_mem_partialSums (hkeeps.partialSums n hn)) hroom⟩
  last := by
    intro hcompleted hlong hsome
    obtain rfl := hall hcompleted
    exact (hkeeps.last hcompleted hlong hsome).1

/-- What a transfer reports is regular: the pieces that it has moved are not empty, and the events
of its record are the reports of counts that keep pace with these pieces, each published when as
many bytes have moved as it tells. -/
structure ReportsRegularly (granularity : Nat) (report : Nat → ε) (completed : Bool)
    (steps : List (Step ε)) : Prop where
  positive : ∀ n ∈ movesOf steps, 0 < n
  reports : ∃ counts, reportsOf steps = counts.map (fun n => (n, report n)) ∧
    KeepsPace granularity (movesOf steps) completed counts

section

variable {granularity total : Nat} {report : Nat → ε} {q : Pace} {completed : Bool}
variable {steps : List (Step ε)}

theorem InPace.reportsRegularly (hpace : InPace report (.start granularity) q completed steps) :
    ReportsRegularly granularity report completed steps where
  positive := hpace.positive
  reports := by
    have hreports := hpace.reports_eq
    have hkeeps := Pace.keepsPace_along granularity hpace.positive completed
    rw [hpace.through_eq] at hkeeps
    exact ⟨_, hreports, hkeeps⟩

/-- The events alone are the progress of the transfer. -/
theorem ReportsRegularly.progresses (hregular : ReportsRegularly granularity report completed steps)
    (hroom : (movesOf steps).sum ≤ total)
    (hall : completed = true → (movesOf steps).sum = total) :
    ∃ counts, Progresses granularity total completed counts ∧
      eventsOf steps = counts.map report := by
  obtain ⟨counts, hreports, hkeeps⟩ := hregular.reports
  refine ⟨counts, hkeeps.progresses hroom hall, ?_⟩
  rw [← map_snd_reportsAfter 0 steps, ← reportsOf, hreports, List.map_map]
  rfl

end

/-! ## Transfers -/

namespace Transfer

open Device

variable {i : Interface} {name : String} {options : TransferOptions} {steps : List (Step ε)}

/-- The exchange of a request publishes nothing, and moves what its answer moves. -/
theorem moves_of_records_exchange {r : Request} {answer : Except Error Response}
    (hrecords : Records (exchange i r) steps answer) :
    eventsOf steps = [] ∧
      movesOf steps = match answer with
        | .ok answer => if answer.status.isSuccess then (r.moved? answer).toList else []
        | .error _ => [] := by
  refine ⟨(only_exchange (Request.exchanged_isTalk i r)).eventsOf_eq_nil hrecords, ?_⟩
  obtain ⟨rfl, e, rfl⟩ | ⟨c, hcode, rfl⟩ := records_exchange hrecords
  · rfl
  · cases answer with
    | error e => rfl
    | ok answer =>
      have hmoved := Step.moved?_exchanged (ε := ε) (i := i) hcode answer
      dsimp only
      split
      case isTrue hstatus =>
        rw [if_pos hstatus] at hmoved
        cases hpiece : r.moved? answer <;> simp [movesOf, hmoved, hpiece]
      case isFalse hstatus =>
        rw [if_neg hstatus] at hmoved
        simp [movesOf, hmoved]

/-- What a selection does, it does at rest. -/
theorem paces_of_records_selectForReading {r : Except Error Nat} (report : Nat → ε) (p : Pace)
    (hrecords : Records (selectForReading i name) steps r) : Paces report p steps p :=
  .quiet ((only_selectForReading (Request.exchanged_isTalk i _)).eventsOf_eq_nil hrecords)
    ((only_selectForReading (Request.exchanged_idle (fun _ => rfl) i)).movesOf_eq_nil hrecords)

theorem paces_of_records_selectForWriting {r : Except Error Unit} (report : Nat → ε) (p : Pace)
    (hrecords : Records (selectForWriting i name) steps r) : Paces report p steps p :=
  .quiet ((only_selectForWriting (Request.exchanged_isTalk i _)).eventsOf_eq_nil hrecords)
    ((only_selectForWriting (Request.exchanged_idle (fun _ => rfl) i)).movesOf_eq_nil hrecords)

/-! ### Downloads -/

/-- A read moves the part of the answer that was asked for, if the answer is accepted. -/
theorem moves_of_records_fileRead {r : ReadRequest} {length : Nat} {answer : Response}
    (hlength : r.length.toNat = length) (hpositive : 0 < length)
    (hrecords : Records (exchange i (.fileRead r)) steps (.ok answer)) :
    movesOf steps =
      if answer.status.isSuccess ∧ 0 < (answer.body.take length).length
      then [(answer.body.take length).length] else [] := by
  have hbody : answer.body = [] ↔ ¬ 0 < (answer.body.take length).length := by
    rw [List.length_take, ← List.length_eq_zero_iff]
    omega
  rw [(moves_of_records_exchange hrecords).2]
  dsimp only
  rw [Request.moved?, hlength, ← List.length_take]
  by_cases hempty : answer.body = []
  · simp [hempty]
  · have hsome : 0 < (answer.body.take length).length :=
      Classical.not_not.1 (mt hbody.2 hempty)
    simp only [hempty, hsome, if_false, and_true, Option.toList]

theorem inPace_of_records_readFrom {chunk total : Nat} {report : Share → ε} {offset : Nat}
    {pace : Pace} {past : List Bytes} {r : Except Error Bytes} (hchunk : 0 < chunk)
    (htotal : total < 0x100000000) (hmoved : pace.moved = offset) (hoffset : offset ≤ total)
    (hpast : past.reverse.flatten.length = offset)
    (hrecords : Records (readFrom i chunk total report offset pace past) steps r) :
    ∃ q, InPace (fun n => report ⟨n, total⟩) pace q r.isOk steps ∧ q.moved ≤ total ∧
      ∀ b, r = .ok b → b.length = total ∧ q.moved = total := by
  -- The induction is on the bytes still to come.
  induction hleft : total - offset using Nat.strongRecOn
    generalizing offset pace past steps r with
  | _ left ih =>
    rw [readFrom] at hrecords
    split at hrecords
    case isFalse hend =>
      obtain rfl : offset = total := by omega
      obtain ⟨rest, rfl, hdone⟩ := records_report.1 hrecords
      obtain ⟨rfl, rfl⟩ := records_pure.1 hdone
      have hquiet : Paces (fun n => report ⟨n, offset⟩) pace [] pace := .quiet rfl rfl
      have hclosed := InPace.closed hquiet
      rw [Pace.closing, publishing_ite, hmoved, List.nil_append] at hclosed
      rw [List.append_nil]
      exact ⟨pace, hclosed, Nat.le_of_eq hmoved, fun b hb => by cases hb; exact ⟨hpast, hmoved⟩⟩
    case isTrue hmore =>
      have hstopped : ∀ {first : List (Step ε)} {e : Error} {r : Except Error Bytes},
          r = .error e → eventsOf first = [] → movesOf first = [] →
          ∃ q, InPace (fun n => report ⟨n, total⟩) pace q r.isOk first ∧ q.moved ≤ total ∧
            ∀ b, r = .ok b → b.length = total ∧ q.moved = total := by
        rintro first e _ rfl hquiet hidle
        refine ⟨pace, .stopped (.quiet hquiet hidle), hmoved ▸ hoffset, fun b hb => ?_⟩
        cases hb
      rcases records_bind.1 hrecords with ⟨first, answer, second, rfl, hask, hrest⟩ | ⟨e, hask, hr⟩
      · have hquiet := (moves_of_records_exchange hask).1
        have hmoves := moves_of_records_fileRead (isRead_ofNat chunk htotal hmore).length_eq
          (by omega) hask
        dsimp only at hrest
        split at hrest
        case isFalse hrefused =>
          obtain ⟨rfl, hr⟩ := records_throw.1 hrest
          rw [if_neg hrefused] at hmoves
          rw [List.append_nil]
          exact hstopped hr hquiet hmoves
        case isTrue haccepted =>
          have hlength :
              (answer.body.take (min chunk (total - offset))).length ≤ total - offset := by
            simp only [List.length_take]
            omega
          rw [if_pos haccepted] at hmoves
          obtain ⟨rest, rfl, hread⟩ := records_report.1 hrest
          obtain ⟨q, hpace, hroom, hbytes⟩ := ih _ (by omega) (by simp [hmoved])
            (by omega) (by simp [← hpast]) hread rfl
          have hmove := InPace.append (Paces.single hquiet hmoves haccepted.2) hpace
          rw [Pace.reported, publishing_ite, hmoved, List.append_assoc] at hmove
          exact ⟨q, hmove, hroom, hbytes⟩
      · obtain ⟨hquiet, hidle⟩ := moves_of_records_exchange hask
        exact hstopped hr hquiet hidle

/-- The answer to a selection that ends in a size tells that size, in 31 bits. -/
theorem Selects.told {r : SelectRequest} {refusal : Error} {talk : List (Step ε)} {size : Nat}
    (hselect : Selects i r refusal talk (.ok size)) :
    size < 0x80000000 ∧
      ∃ answer, answersOf talk = [answer] ∧ Transfer.sizeTold refusal answer = .ok size := by
  cases hselect with
  | @selected answer reply _ _ hask hstatus hbody hsize =>
    have hfits := reply.size.toInt_lt
    have htold : Transfer.sizeTold refusal (.ok answer) = .ok size := by
      simp [Transfer.sizeTold, hstatus, hbody, hsize]
    cases hask
    exact ⟨by omega, .ok answer, rfl, htold⟩

/-- A file that is selected for reading has a size other than zero, which the terminal has told. -/
theorem told_of_records_selectForReading {total : Nat}
    (hrecords : Records (selectForReading i name) steps (.ok total)) :
    0 < total ∧ total < 0x80000000 ∧
      ∃ answer, answersOf steps = [answer] ∧
        sizeTold (.fileNotFound name) answer = .ok total := by
  rw [selectForReading_eq] at hrecords
  rcases records_bind.1 hrecords with ⟨first, reply, second, rfl, hreply, hsize⟩ | ⟨e, -, he⟩
  · obtain ⟨_, hok, hnonneg, hselect⟩ | ⟨e, he, -⟩ := Selects.of_leaves hreply.leaves
    · cases hok
      split at hsize
      case isTrue => cases (records_throw.1 hsize).2
      case isFalse hzero =>
        obtain ⟨rfl, htotal⟩ := records_pure.1 hsize
        cases htotal
        obtain ⟨hfits, answer, hanswer, htold⟩ := hselect.told
        have hne : reply.size.toInt ≠ 0 := fun h => hzero (Int32.toInt_inj.1 h)
        have hpositive : 0 < reply.size.toInt.toNat := by omega
        rw [List.append_nil, ← answersOf_talkOf]
        exact ⟨hpositive, hfits, answer, hanswer, htold⟩
    · cases he
  · cases he

/-- A download goes at its pace from the start, through as many bytes as the terminal has told that
the file has. -/
theorem inPace_of_records_download {report : Share → ε} {r : Except Error Bytes}
    (hrecords : Records (download i name options report) steps r) :
    ∃ total q, InPace (fun n => report ⟨n, total⟩) (.start options.granularity) q r.isOk steps ∧
      q.moved ≤ total ∧
      (movesOf steps ≠ [] →
        (answersOf steps).head?.map (sizeTold (.fileNotFound name)) = some (.ok total)) ∧
      ∀ b, r = .ok b → b.length = total ∧ q.moved = total ∧ 0 < total ∧ total < 0x80000000 := by
  have hstart : (Pace.start options.granularity).moved = 0 := rfl
  unfold download at hrecords
  split at hrecords
  case isTrue =>
    obtain ⟨rfl, rfl⟩ := records_throw.1 hrecords
    exact ⟨0, _, .stopped (.quiet rfl rfl), Nat.le_of_eq hstart, nofun, nofun⟩
  case isFalse hchunk =>
    rcases records_bind.1 hrecords with ⟨first, total, second, rfl, hselect, hread⟩ |
      ⟨e, hselect, rfl⟩
    · obtain ⟨hpositive, hfits, answer, hanswer, htold⟩ := told_of_records_selectForReading hselect
      obtain ⟨q, hpace, hroom, hbytes⟩ := inPace_of_records_readFrom (Nat.pos_of_ne_zero hchunk)
        (by omega) hstart (Nat.zero_le _) rfl hread
      have hpaces := paces_of_records_selectForReading (fun n => report ⟨n, total⟩)
        (.start options.granularity) hselect
      refine ⟨total, q, .append hpaces hpace, hroom, fun _ => ?_, fun b hb => ?_⟩
      · rw [answersOf_append, hanswer, List.singleton_append, List.head?_cons, Option.map_some,
          htold]
      · obtain ⟨hlength, hall⟩ := hbytes b hb
        exact ⟨hlength, hall, hpositive, hfits⟩
    · have hpaces := paces_of_records_selectForReading (fun n => report ⟨n, 0⟩)
        (.start options.granularity) hselect
      refine ⟨0, _, .stopped hpaces, Nat.le_of_eq hstart, ?_, nofun⟩
      rw [(only_selectForReading (Request.exchanged_idle (fun _ => rfl) i)).movesOf_eq_nil hselect]
      nofun

/-! ### Uploads -/

/-- Writing a piece publishes nothing, and moves the piece if it succeeds. -/
theorem moves_of_records_writePiece {delayMs : UInt16} {offset : Nat} {piece : Bytes}
    {r : Except Error Unit} (hrecords : Records (writePiece i delayMs offset piece) steps r) :
    eventsOf steps = [] ∧ movesOf steps = if r.isOk then [piece.length] else [] := by
  rcases records_bind.1 hrecords with ⟨first, answer, second, rfl, hask, hjudge⟩ | ⟨e, hask, rfl⟩
  · obtain ⟨hquiet, hmoves⟩ := moves_of_records_exchange hask
    dsimp only at hmoves
    split at hjudge
    case isTrue hstatus =>
      obtain ⟨rfl, rfl⟩ := records_throw.1 hjudge
      rw [if_neg (by simpa using hstatus)] at hmoves
      simp [hquiet, hmoves, Except.isOk, Except.toBool]
    case isFalse hstatus =>
      obtain ⟨rfl, rfl⟩ := records_pure.1 hjudge
      rw [if_pos (by simpa using hstatus)] at hmoves
      simp [hquiet, hmoves, Except.isOk, Except.toBool, Request.moved?]
  · exact moves_of_records_exchange hask

/-- Pieces that are written move one after the other, each with the report that is due after it. -/
theorem paces_of_records_writeEach {report : Nat → ε} {sent : Nat} {pace : Pace}
    {pieces : List Bytes} {r : Except Error (Nat × Pace)} (hmoved : pace.moved = sent)
    (hsome : [] ∉ pieces)
    (hrecords : Records (writeEach i options report sent pace pieces) steps r) :
    ∃ q, Paces report pace steps q ∧ movesOf steps <+: pieces.map List.length ∧
      ∀ v, r = .ok v → v = (q.moved, q) ∧ movesOf steps = pieces.map List.length := by
  induction pieces generalizing sent pace steps r with
  | nil =>
    obtain ⟨rfl, rfl⟩ := records_pure.1 hrecords
    refine ⟨pace, .quiet rfl rfl, List.prefix_rfl, fun v hv => ?_⟩
    cases hv
    exact ⟨by rw [hmoved], rfl⟩
  | cons piece rest ih =>
    obtain ⟨hpiece, hlater⟩ := not_or.1 fun h => hsome (List.mem_cons.2 h)
    have hstopped : ∀ {first : List (Step ε)} {e : Error} {r : Except Error (Nat × Pace)},
        r = .error e → eventsOf first = [] → movesOf first = [] →
        ∃ q, Paces report pace first q ∧ movesOf first <+: (piece :: rest).map List.length ∧
          ∀ v, r = .ok v → v = (q.moved, q) ∧
            movesOf first = (piece :: rest).map List.length := by
      rintro first e _ rfl hquiet hmoves
      refine ⟨pace, .quiet hquiet hmoves, hmoves ▸ List.nil_prefix, fun v hv => ?_⟩
      cases hv
    rw [writeEach] at hrecords
    split at hrecords
    case isTrue =>
      obtain ⟨rfl, hr⟩ := records_throw.1 hrecords
      exact hstopped hr rfl rfl
    case isFalse =>
      rcases records_bind.1 hrecords with ⟨first, v, second, rfl, hwrite, hrest⟩ | ⟨e, hwrite, hr⟩
      · obtain ⟨hquiet, hmoves⟩ := moves_of_records_writePiece hwrite
        obtain ⟨later, rfl, hwrites⟩ := records_report.1 hrest
        obtain ⟨q, hpaces, hprefix, hdone⟩ := ih (by simp [hmoved]) hlater hwrites
        have hmove := (Paces.single hquiet hmoves (List.length_pos_iff.2 (Ne.symm hpiece))).append
          hpaces
        have hall : movesOf ((first ++ publishing report (pace.reported piece.length)) ++ later) =
            piece.length :: movesOf later := by
          rw [movesOf_append, movesOf_append, hmoves, movesOf_publishing]
          rfl
        rw [← List.append_assoc, ← publishing_ite, ← hmoved, ← Pace.reported, hall]
        refine ⟨q, hmove, (List.prefix_cons_inj _).2 hprefix, fun v hv => ?_⟩
        obtain ⟨hv, hmoves⟩ := hdone v hv
        exact ⟨hv, congrArg (piece.length :: ·) hmoves⟩
      · obtain ⟨hquiet, hmoves⟩ := moves_of_records_writePiece hwrite
        exact hstopped hr hquiet hmoves

/-- With the report that is due at the end the upload is completed. -/
theorem inPace_of_records_closeWrites {report : Nat → ε} {sent : Nat} {pace : Pace}
    {pieces : List Bytes} {r : Except Error Nat} (hmoved : pace.moved = sent) (hsome : [] ∉ pieces)
    (hrecords : Records
      (writeEach i options report sent pace pieces >>= closeWrites report) steps r) :
    ∃ q, InPace report pace q r.isOk steps ∧ movesOf steps <+: pieces.map List.length ∧
      ∀ n, r = .ok n → n = q.moved ∧ movesOf steps = pieces.map List.length := by
  rcases records_bind.1 hrecords with ⟨first, ⟨written, last⟩, second, rfl, heach, hend⟩ |
    ⟨e, heach, rfl⟩
  · obtain ⟨q, hpaces, -, hdone⟩ := paces_of_records_writeEach hmoved hsome heach
    obtain ⟨hv, hmoves⟩ := hdone _ rfl
    cases hv
    obtain ⟨rest, rfl, hdone⟩ := records_report.1 hend
    obtain ⟨rfl, rfl⟩ := records_pure.1 hdone
    rw [List.append_nil, ← publishing_ite, ← Pace.closing, movesOf_append, movesOf_publishing,
      List.append_nil, hmoves]
    refine ⟨last, .closed hpaces, List.prefix_rfl, fun n hn => ?_⟩
    cases hn
    exact ⟨rfl, rfl⟩
  · obtain ⟨q, hpaces, hprefix, -⟩ := paces_of_records_writeEach hmoved hsome heach
    exact ⟨q, .stopped hpaces, hprefix, nofun⟩

/-- An upload goes at its pace from the start, through pieces of its content. -/
theorem inPace_of_records_uploadRange {report : Nat → ε} {data : Bytes} {offset length : Nat}
    {r : Except Error Nat}
    (hrecords : Records (uploadRange data offset length i name options report) steps r) :
    ∃ q, InPace report (.start options.granularity) q r.isOk steps ∧ q.moved ≤ length ∧
      ∀ n, r = .ok n → n = length ∧ q.moved = length := by
  have hstart : (Pace.start options.granularity).moved = 0 := rfl
  have hstopped : ∀ {steps : List (Step ε)} {e},
      Paces report (.start options.granularity) steps (.start options.granularity) →
      r = .error e → ∃ q, InPace report (.start options.granularity) q r.isOk steps ∧
        q.moved ≤ length ∧ ∀ n, r = .ok n → n = length ∧ q.moved = length := by
    rintro steps e hpaces rfl
    exact ⟨_, .stopped hpaces, Nat.zero_le _, nofun⟩
  unfold uploadRange at hrecords
  dsimp only at hrecords
  split at hrecords
  case isTrue =>
    obtain ⟨rfl, hr⟩ := records_throw.1 hrecords
    exact hstopped (.quiet rfl rfl) hr
  case isFalse hchunk =>
    split at hrecords
    case isTrue =>
      obtain ⟨rfl, hr⟩ := records_throw.1 hrecords
      exact hstopped (.quiet rfl rfl) hr
    case isFalse hrange =>
      rcases records_bind.1 hrecords with ⟨first, v, second, rfl, hselect, hwrite⟩ |
        ⟨e, hselect, hr⟩
      · rw [writePieces_eq] at hwrite
        have hchunk : 0 < options.maxChunk := Nat.pos_of_ne_zero hchunk
        have hsome : [] ∉ Bytes.pieces options.maxChunk ((data.drop offset).take length) :=
          fun hnil => absurd (Bytes.length_of_mem_pieces hnil).1 (Nat.lt_irrefl 0)
        obtain ⟨q, hpace, hprefix, hdone⟩ := inPace_of_records_closeWrites hstart hsome hwrite
        have hcontent : ((Bytes.pieces options.maxChunk ((data.drop offset).take length)).map
            List.length).sum = length := by
          rw [← List.length_flatten, Bytes.flatten_pieces hchunk, List.length_take,
            List.length_drop]
          omega
        have hq := hpace.sum_movesOf
        have hroom : q.moved ≤ length := by
          obtain ⟨later, hlater⟩ := hprefix
          rw [← hcontent, ← hlater, List.sum_append, ← hq]
          exact Nat.le_add_right ..
        refine ⟨q, .append (paces_of_records_selectForWriting _ _ hselect) hpace, hroom, ?_⟩
        intro n hn
        obtain ⟨rfl, hall⟩ := hdone n hn
        rw [hall, hcontent] at hq
        exact ⟨hq.symm, hq.symm⟩
      · exact hstopped (paces_of_records_selectForWriting _ _ hselect) hr

/-- A download publishes its progress. -/
theorem progresses_of_records_download {report : Share → ε} {r : Except Error Bytes}
    (hrecords : Records (download i name options report) steps r) :
    ∃ total counts, Progresses options.granularity total r.isOk counts ∧
      eventsOf steps = counts.map (fun n => report ⟨n, total⟩) ∧
      ∀ b, r = .ok b → b.length = total := by
  obtain ⟨total, q, hpace, hroom, -, hbytes⟩ := inPace_of_records_download hrecords
  have hmoved := hpace.sum_movesOf
  have hall : r.isOk = true → (movesOf steps).sum = total := by
    cases r with
    | error e => nofun
    | ok b => exact fun _ => hmoved.trans (hbytes b rfl).2.1
  obtain ⟨counts, hprogress, hevents⟩ := hpace.reportsRegularly.progresses (hmoved ▸ hroom) hall
  exact ⟨total, counts, hprogress, hevents, fun b hb => (hbytes b hb).1⟩

/-- So does an upload, counting the bytes that it was given. -/
theorem progresses_of_records_upload {report : Nat → ε} {data : Bytes} {r : Except Error Nat}
    (hrecords : Records (upload data i name options report) steps r) :
    ∃ counts, Progresses options.granularity data.length r.isOk counts ∧
      eventsOf steps = counts.map report := by
  obtain ⟨q, hpace, hroom, hdone⟩ := inPace_of_records_uploadRange hrecords
  have hmoved := hpace.sum_movesOf
  have hall : r.isOk = true → (movesOf steps).sum = data.length := by
    cases r with
    | error e => nofun
    | ok n => exact fun _ => hmoved.trans (hdone n rfl).2
  exact hpace.reportsRegularly.progresses (hmoved ▸ hroom) hall

/-- Five bytes that are written two at a time and reported every three. -/
example :
    let told : ScriptEntry := .respond ⟨.success, [0, 0, 0, 0]⟩
    let script : Script := { entries := [told, told, told, told] }
    let out := (upload [1, 2, 3, 4, 5] .primary "file" ⟨2, 3, 0⟩ (id : Nat → Nat)).run.run
      (.of .scripted .scripted) (script, ScriptedHost.ofScript .unreachable)
    movesOf out.steps = [2, 2, 1] ∧ reportsOf out.steps = [(4, 4), (5, 5)] := by
  decide +kernel

end Transfer

end KeyInjection
