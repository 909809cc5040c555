-- SUMMARY: What sessions and attempts say to their surroundings, along their sequencing.
import KeyInjection.Device

/-!
# Talk

The talk of a record is what is left of it without the events: the exchanges with the terminal and
the requests to the key host, with their answers, in order. `Leaves a talk r` says that the attempt
`a` can leave this talk and end in `r`, whatever its surroundings do; its rules follow the way
attempts are put together, and `leaves_run` leads from runs to talks.
-/

namespace KeyInjection

/-! ## Records of sessions -/

namespace Session

/-- A record of two sessions in sequence is a record of the first and then one of the second. -/
theorem generates_bind {p : Session ε α} {k : α → Session ε β} {steps : List (Step ε)} {b : β} :
    Generates (p.bind k) steps b ↔
      ∃ first a second, steps = first ++ second ∧ Generates p first a ∧
        Generates (k a) second b := by
  constructor
  · intro hgen
    induction p generalizing steps with
    | done a => exact ⟨[], a, steps, rfl, .done, hgen⟩
    | exchange i c next ih =>
      cases hgen with
      | exchange hnext =>
        obtain ⟨first, a, second, rfl, hp, hk⟩ := ih _ hnext
        exact ⟨_ :: first, a, second, rfl, .exchange hp, hk⟩
    | post url body next ih =>
      cases hgen with
      | post hnext =>
        obtain ⟨first, a, second, rfl, hp, hk⟩ := ih _ hnext
        exact ⟨_ :: first, a, second, rfl, .post hp, hk⟩
    | publish e next ih =>
      cases hgen with
      | publish hnext =>
        obtain ⟨first, a, second, rfl, hp, hk⟩ := ih hnext
        exact ⟨_ :: first, a, second, rfl, .publish hp, hk⟩
  · rintro ⟨first, a, second, rfl, hp, hk⟩
    induction hp with
    | done => exact hk
    | exchange _ ih => exact .exchange (ih hk)
    | post _ ih => exact .post (ih hk)
    | publish _ ih => exact .publish (ih hk)

theorem generates_map {f : α → β} {p : Session ε α} {steps : List (Step ε)} {b : β} :
    Generates (f <$> p) steps b ↔ ∃ a, Generates p steps a ∧ f a = b := by
  constructor
  · intro hgen
    obtain ⟨first, a, second, rfl, hp, hdone⟩ := generates_bind.1 hgen
    cases hdone
    exact ⟨a, by rwa [List.append_nil], rfl⟩
  · rintro ⟨a, hp, rfl⟩
    exact generates_bind.2 ⟨steps, a, [], (List.append_nil _).symm, hp, .done⟩

end Session

/-! ## Talks -/

/-- Whether a step says something to the terminal or to the key host. -/
def Step.isTalk : Step ε → Bool
  | exchanged .. | posted .. => true
  | published _ => false

/-- A record without its events. -/
def talkOf (steps : List (Step ε)) : List (Step ε) := steps.filter Step.isTalk

@[simp] theorem talkOf_append (first second : List (Step ε)) :
    talkOf (first ++ second) = talkOf first ++ talkOf second := List.filter_append ..

/-- The commands of a record are those of its talk. -/
@[simp] theorem commandsOf_talkOf (steps : List (Step ε)) :
    commandsOf (talkOf steps) = commandsOf steps := by
  rw [commandsOf, talkOf, List.filterMap_filter]
  congr 1
  funext step
  cases step <;> rfl

/-- The requests to the key host in a record are those of its talk. -/
@[simp] theorem postsOf_talkOf (steps : List (Step ε)) :
    postsOf (talkOf steps) = postsOf steps := by
  rw [postsOf, talkOf, List.filterMap_filter]
  congr 1
  funext step
  cases step <;> rfl

/-! ## Views of a record step by step -/

@[simp] theorem commandsOf_nil : commandsOf ([] : List (Step ε)) = [] := rfl

@[simp] theorem postsOf_nil : postsOf ([] : List (Step ε)) = [] := rfl

@[simp] theorem commandsOf_cons (step : Step ε) (steps : List (Step ε)) :
    commandsOf (step :: steps) = step.command?.toList ++ commandsOf steps := by
  cases step <;> rfl

@[simp] theorem postsOf_cons (step : Step ε) (steps : List (Step ε)) :
    postsOf (step :: steps) = step.posted?.toList ++ postsOf steps := by
  cases step <;> rfl

@[simp] theorem commandsOf_append (first second : List (Step ε)) :
    commandsOf (first ++ second) = commandsOf first ++ commandsOf second := List.filterMap_append

@[simp] theorem postsOf_append (first second : List (Step ε)) :
    postsOf (first ++ second) = postsOf first ++ postsOf second := List.filterMap_append

@[simp] theorem eventsOf_nil : eventsOf ([] : List (Step ε)) = [] := rfl

@[simp] theorem eventsOf_cons (step : Step ε) (steps : List (Step ε)) :
    eventsOf (step :: steps) = step.event?.toList ++ eventsOf steps := by
  cases step <;> rfl

@[simp] theorem eventsOf_append (first second : List (Step ε)) :
    eventsOf (first ++ second) = eventsOf first ++ eventsOf second := List.filterMap_append

/-! ## Answers of the terminal -/

def Step.answer? : Step ε → Option (Except Error Response)
  | exchanged _ _ answer => some answer
  | _ => none

def answersOf (steps : List (Step ε)) : List (Except Error Response) :=
  steps.filterMap Step.answer?

@[simp] theorem answersOf_nil : answersOf ([] : List (Step ε)) = [] := rfl

@[simp] theorem answersOf_cons (step : Step ε) (steps : List (Step ε)) :
    answersOf (step :: steps) = step.answer?.toList ++ answersOf steps := by
  cases step <;> rfl

@[simp] theorem answersOf_append (first second : List (Step ε)) :
    answersOf (first ++ second) = answersOf first ++ answersOf second := List.filterMap_append

/-- The answers of a record are those of its talk. -/
@[simp] theorem answersOf_talkOf (steps : List (Step ε)) :
    answersOf (talkOf steps) = answersOf steps := by
  rw [answersOf, talkOf, List.filterMap_filter]
  congr 1
  funext step
  cases step <;> rfl

/-! ## Records of exchanges -/

/-- Exchanges on one interface are their commands. -/
theorem commandsOf_map_exchanged (i : Interface) (command : α → Command)
    (answer : α → Except Error Response) (l : List α) :
    commandsOf (l.map fun x => (.exchanged i (command x) (answer x) : Step ε)) =
      l.map fun x => (i, command x) := by
  rw [commandsOf, List.filterMap_map, ← List.filterMap_eq_map]
  rfl

theorem postsOf_map_exchanged (i : Interface) (command : α → Command)
    (answer : α → Except Error Response) (l : List α) :
    postsOf (l.map fun x => (.exchanged i (command x) (answer x) : Step ε)) = [] := by
  rw [postsOf, List.filterMap_map]
  exact List.filterMap_eq_nil_iff.2 fun _ _ => rfl

theorem answersOf_map_exchanged (i : Interface) (command : α → Command)
    (answer : α → Except Error Response) (l : List α) :
    answersOf (l.map fun x => (.exchanged i (command x) (answer x) : Step ε)) = l.map answer := by
  rw [answersOf, List.filterMap_map, ← List.filterMap_eq_map]
  rfl

/-! ## Commands of requests -/

/-- The command of a request, or nothing for a request that has no encoding. -/
def Request.submission (i : Interface) (r : Request) : List (Interface × Command) :=
  match r.command with
  | .ok c => [(i, c)]
  | .error _ => []

def submissions (i : Interface) (rs : List Request) : List (Interface × Command) :=
  rs.flatMap (·.submission i)

@[simp] theorem submissions_nil (i : Interface) : submissions i [] = [] := rfl

@[simp] theorem submissions_cons (i : Interface) (r : Request) (rs : List Request) :
    submissions i (r :: rs) = r.submission i ++ submissions i rs := rfl

@[simp] theorem submissions_append (i : Interface) (first second : List Request) :
    submissions i (first ++ second) = submissions i first ++ submissions i second :=
  List.flatMap_append

/-- Requests that all have an encoding are as many commands. -/
theorem length_submissions {i : Interface} {rs : List Request}
    (hrs : ∀ r ∈ rs, ∃ c, r.command = .ok c) : (submissions i rs).length = rs.length := by
  induction rs with
  | nil => rfl
  | cons r rest ih =>
    obtain ⟨⟨c, hcode⟩, hrest⟩ := List.forall_mem_cons.1 hrs
    rw [submissions_cons, Request.submission, hcode, List.length_append, ih hrest,
      List.length_cons, Nat.add_comm]
    rfl

/-- The first of their commands are those of the first requests. -/
theorem take_submissions {i : Interface} {rs : List Request}
    (hrs : ∀ r ∈ rs, ∃ c, r.command = .ok c) (n : Nat) :
    (submissions i rs).take n = submissions i (rs.take n) := by
  induction rs generalizing n with
  | nil => simp
  | cons r rest ih =>
    obtain ⟨⟨c, hcode⟩, hrest⟩ := List.forall_mem_cons.1 hrs
    cases n with
    | zero => rfl
    | succ n =>
      rw [List.take_succ_cons, submissions_cons, submissions_cons, ← ih hrest n, Request.submission,
        hcode]
      rfl

/-- All commands of requests go to one interface. -/
theorem interface_of_mem_submissions {i : Interface} {rs : List Request} {x : Interface × Command}
    (hx : x ∈ submissions i rs) : x.1 = i := by
  obtain ⟨r, -, hx⟩ := List.mem_flatMap.1 hx
  unfold Request.submission at hx
  cases hcode : r.command with
  | ok c =>
    rw [hcode] at hx
    rw [List.mem_singleton.1 hx]
  | error e =>
    rw [hcode] at hx
    cases hx

/-! ## Records of attempts -/

/-- The attempt can leave this record and end this way. -/
def Records (a : Attempt ε φ α) (steps : List (Step ε)) (r : Except φ α) : Prop :=
  Session.Generates a.run steps r

theorem records_run (w : Surroundings σ) (a : Attempt ε φ α) (s : σ) :
    Records a (a.run.run w s).steps (a.run.run w s).value := Session.generates_run w a.run s

@[simp] theorem records_pure {v : α} {steps : List (Step ε)} {r : Except φ α} :
    Records (pure v : Attempt ε φ α) steps r ↔ steps = [] ∧ r = .ok v := by
  constructor
  · intro hgen
    cases hgen
    exact ⟨rfl, rfl⟩
  · rintro ⟨rfl, rfl⟩
    exact .done

@[simp] theorem records_throw {e : φ} {steps : List (Step ε)} {r : Except φ α} :
    Records (throw e : Attempt ε φ α) steps r ↔ steps = [] ∧ r = .error e := by
  constructor
  · intro hgen
    cases hgen
    exact ⟨rfl, rfl⟩
  · rintro ⟨rfl, rfl⟩
    exact .done

@[simp] theorem records_emit {e : ε} {steps : List (Step ε)} {r : Except φ Unit} :
    Records (ExceptT.lift (Session.emit e) : Attempt ε φ Unit) steps r ↔
      steps = [.published e] ∧ r = .ok () := by
  constructor
  · intro hgen
    cases hgen with
    | publish hdone =>
      cases hdone
      exact ⟨rfl, rfl⟩
  · rintro ⟨rfl, rfl⟩
    exact .publish .done

@[simp] theorem records_submit {i : Interface} {c : Command} {steps : List (Step ε)}
    {r : Except Error Response} :
    Records (Device.submit i c : Attempt ε Error Response) steps r ↔
      steps = [.exchanged i c r] := by
  constructor
  · intro hgen
    cases hgen with
    | exchange hdone =>
      cases hdone
      rfl
  · rintro rfl
    exact .exchange .done

/-- An attempt whose failure is looked at leaves its own record. -/
theorem records_lift_run {a : Attempt ε ψ α} {steps : List (Step ε)} {r : Except φ (Except ψ α)} :
    Records (ExceptT.lift a.run : Attempt ε φ (Except ψ α)) steps r ↔
      ∃ x, Records a steps x ∧ r = .ok x := by
  have hlift : Records (ExceptT.lift a.run : Attempt ε φ (Except ψ α)) steps r ↔
      ∃ first x second, steps = first ++ second ∧ Records a first x ∧
        Session.Generates (.done (.ok x)) second r := Session.generates_bind
  rw [hlift]
  constructor
  · rintro ⟨first, x, second, rfl, ha, hdone⟩
    cases hdone
    exact ⟨x, by rwa [List.append_nil], rfl⟩
  · rintro ⟨x, ha, rfl⟩
    exact ⟨steps, x, [], by simp, ha, .done⟩

/-- Two attempts in sequence leave the record of the first and, unless it failed, that of the
second. -/
theorem records_bind {a : Attempt ε φ α} {k : α → Attempt ε φ β} {steps : List (Step ε)}
    {r : Except φ β} :
    Records (a >>= k) steps r ↔
      (∃ first v second, steps = first ++ second ∧ Records a first (.ok v) ∧
        Records (k v) second r) ∨ ∃ e, Records a steps (.error e) ∧ r = .error e := by
  have hbind : Records (a >>= k) steps r ↔
      ∃ first x second, steps = first ++ second ∧ Records a first x ∧
        Session.Generates (ExceptT.bindCont k x) second r := Session.generates_bind
  rw [hbind]
  constructor
  · rintro ⟨first, x, second, rfl, ha, hk⟩
    cases x with
    | ok v => exact .inl ⟨first, v, second, rfl, ha, hk⟩
    | error e =>
      cases hk
      exact .inr ⟨e, by rwa [List.append_nil], rfl⟩
  · rintro (⟨first, v, second, rfl, ha, hk⟩ | ⟨e, ha, rfl⟩)
    · exact ⟨first, .ok v, second, rfl, ha, hk⟩
    · exact ⟨steps, .error e, [], by simp, ha, .done⟩

/-- What is published on the way stands in front of the record of the rest. -/
theorem records_emit_bind {e : ε} {a : Attempt ε φ β} {steps : List (Step ε)} {r : Except φ β} :
    Records ((ExceptT.lift (Session.emit e) : Attempt ε φ Unit) >>= fun _ => a) steps r ↔
      ∃ rest, steps = .published e :: rest ∧ Records a rest r := by
  rw [records_bind]
  constructor
  · rintro (⟨first, v, second, rfl, hemit, ha⟩ | ⟨e, hemit, -⟩)
    · obtain ⟨rfl, -⟩ := records_emit.1 hemit
      exact ⟨second, rfl, ha⟩
    · exact absurd (records_emit.1 hemit).2 (by simp)
  · rintro ⟨rest, rfl, ha⟩
    exact .inl ⟨[.published e], (), rest, rfl, records_emit.2 ⟨rfl, rfl⟩, ha⟩

/-- So does what may be published on the way. -/
theorem records_report {c : Prop} [Decidable c] {e : ε} {a : Attempt ε φ β}
    {steps : List (Step ε)} {r : Except φ β} :
    Records (if c then (ExceptT.lift (Session.emit e) : Attempt ε φ Unit) >>= fun _ => a else a)
      steps r ↔ ∃ rest, steps = (if c then [.published e] else []) ++ rest ∧ Records a rest r := by
  split
  · exact records_emit_bind
  · simp

/-! ## Talks of attempts -/

/-- The attempt can leave this talk and end this way. -/
def Leaves (a : Attempt ε φ α) (talk : List (Step ε)) (r : Except φ α) : Prop :=
  ∃ steps, Session.Generates a.run steps r ∧ talkOf steps = talk

theorem Records.leaves {a : Attempt ε φ α} {steps : List (Step ε)} {r : Except φ α}
    (hrecords : Records a steps r) : Leaves a (talkOf steps) r := ⟨steps, hrecords, rfl⟩

theorem leaves_run (w : Surroundings σ) (a : Attempt ε φ α) (s : σ) :
    Leaves a (talkOf (a.run.run w s).steps) (a.run.run w s).value := (records_run w a s).leaves

@[simp] theorem leaves_pure {v : α} {talk : List (Step ε)} {r : Except φ α} :
    Leaves (pure v : Attempt ε φ α) talk r ↔ talk = [] ∧ r = .ok v := by
  constructor
  · rintro ⟨steps, hgen, rfl⟩
    obtain ⟨rfl, rfl⟩ := records_pure.1 hgen
    exact ⟨rfl, rfl⟩
  · rintro ⟨rfl, rfl⟩
    exact ⟨[], .done, rfl⟩

@[simp] theorem leaves_throw {e : φ} {talk : List (Step ε)} {r : Except φ α} :
    Leaves (throw e : Attempt ε φ α) talk r ↔ talk = [] ∧ r = .error e := by
  constructor
  · rintro ⟨steps, hgen, rfl⟩
    obtain ⟨rfl, rfl⟩ := records_throw.1 hgen
    exact ⟨rfl, rfl⟩
  · rintro ⟨rfl, rfl⟩
    exact ⟨[], .done, rfl⟩

@[simp] theorem leaves_submit {i : Interface} {c : Command} {talk : List (Step ε)}
    {r : Except Error Response} :
    Leaves (Device.submit i c : Attempt ε Error Response) talk r ↔ talk = [.exchanged i c r] := by
  constructor
  · rintro ⟨steps, hgen, rfl⟩
    rw [records_submit.1 hgen]
    rfl
  · rintro rfl
    exact ⟨_, .exchange .done, rfl⟩

/-- Two attempts in sequence leave the talk of the first and, unless it failed, that of the
second. -/
theorem leaves_bind {a : Attempt ε φ α} {k : α → Attempt ε φ β} {talk : List (Step ε)}
    {r : Except φ β} :
    Leaves (a >>= k) talk r ↔
      (∃ first v second, talk = first ++ second ∧ Leaves a first (.ok v) ∧ Leaves (k v) second r) ∨
        ∃ e, Leaves a talk (.error e) ∧ r = .error e := by
  constructor
  · rintro ⟨steps, hgen, rfl⟩
    rcases records_bind.1 hgen with ⟨first, v, second, rfl, ha, hk⟩ | ⟨e, ha, rfl⟩
    · exact .inl ⟨_, v, _, talkOf_append .., ha.leaves, hk.leaves⟩
    · exact .inr ⟨e, ha.leaves, rfl⟩
  · rintro (⟨_, v, _, rfl, ⟨first, ha, rfl⟩, ⟨second, hk, rfl⟩⟩ | ⟨e, ⟨steps, ha, rfl⟩, rfl⟩)
    · exact ⟨_, records_bind.2 (.inl ⟨first, v, second, rfl, ha, hk⟩), talkOf_append ..⟩
    · exact ⟨steps, records_bind.2 (.inr ⟨e, ha, rfl⟩), rfl⟩

/-- What may be published on the way leaves no talk. -/
theorem leaves_report {c : Prop} [Decidable c] {e : ε} {a : Attempt ε φ β}
    {talk : List (Step ε)} {r : Except φ β} :
    Leaves (if c then (ExceptT.lift (Session.emit e) : Attempt ε φ Unit) >>= fun _ => a else a)
      talk r ↔ Leaves a talk r := by
  have hquiet : ∀ rest : List (Step ε),
      talkOf ((if c then [.published e] else []) ++ rest) = talkOf rest := by
    intro rest
    split <;> rfl
  constructor
  · rintro ⟨steps, hgen, rfl⟩
    obtain ⟨rest, rfl, ha⟩ := records_report.1 hgen
    exact ⟨rest, ha, (hquiet rest).symm⟩
  · rintro ⟨steps, ha, rfl⟩
    exact ⟨_, records_report.2 ⟨steps, rfl, ha⟩, hquiet steps⟩

end KeyInjection
