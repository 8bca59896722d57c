import Tandem.Proofs.Text.Pieces
import Tandem.Scenario.Grammar
/-!
# The lines that are read

`IsLine` is the grammar of scenario lines as a relation between texts and commands: what a line looks like, and what it
says.  `parseLine` reads exactly the lines of this grammar, and reads in them what they say (`parseLine_iff`).

A command has one line that spells it out, `ScenarioCommand.canonical`.  Other lines of the same command leave out the
priority, have blanks around their fields, or use an older word (`IsBody.canonical`).
-/

namespace Tandem

/-- What a computation of two steps comes to. -/
theorem Except.bind_eq_ok_iff {ε α β : Type} {x : Except ε α} {f : α → Except ε β} {b : β} :
    x >>= f = .ok b ↔ ∃ a, x = .ok a ∧ f a = .ok b := by
  cases x with
  | error fault => exact ⟨nofun, fun ⟨_, same, _⟩ => nomatch same⟩
  | ok a =>
    refine ⟨fun h => ⟨a, rfl, h⟩, fun ⟨a', same, h⟩ => ?_⟩
    cases same
    exact h

namespace Scenario

/-! ## The grammar -/

/-- The two digits of a number below a hundred. -/
def twoDigits (n : Nat) : List Char := [(n / 10).digitChar, (n % 10).digitChar]

/-- A time `h:mm:ss`, and the seconds that it stands for. -/
inductive IsTime : String → Nat → Prop
  | intro {h m s : Nat} (hour : h < 10) (minutes : m < 60) (seconds : s < 60) :
      IsTime (String.ofList (h.digitChar :: ':' :: (twoDigits m ++ ':' :: twoDigits s))) (3600 * h + 60 * m + s)

/-- A time with its priority, which is zero if none is written. -/
inductive IsDue : String → Nat → Nat → Prop
  | plain {time : String} {due : Nat} (timed : IsTime time due) : IsDue time due 0
  | prior {time : String} {due : Nat} {ds : List Char} (timed : IsTime time due) (nonempty : ds ≠ [])
      (digits : ∀ c ∈ ds, c.isDigit = true) (fits : Number.digitsValue ds < UInt32.size) :
      IsDue (String.ofList (time.toList ++ '-' :: ds)) due (Number.digitsValue ds)

/-- A word for an action. -/
inductive IsWord : String → Action → Prop
  | name (a : Action) : IsWord a.name a
  | refresh : IsWord "refresh" .newRound

/-- An address: segments of letters, digits and low lines, joined by dashes. -/
def IsAddress (text : String) : Prop :=
  ∃ segments : List String, segments ≠ [] ∧
    (∀ segment ∈ segments, segment ≠ "" ∧ ∀ c ∈ segment.toList, c.isAlphanum = true ∨ c = '_') ∧
    text = "-".intercalate segments

/-- The fields after the time, and what they say. -/
inductive IsBody : List String → CommandPayload → Prop
  | sessionAction {word : String} {a : Action} (spelled : IsWord word a) (allowed : a.allowedFor .session = true) :
      IsBody [word] (.act .session a)
  | sessionParameter {name value : String} (known : name ∈ sessionParameters) (nonempty : value ≠ "") :
      IsBody [name, value] (.set .session name value)
  | taskAction {t : TaskId} {word : String} {a : Action} (spelled : IsWord word a)
      (allowed : a.allowedFor (.task t) = true) : IsBody [t.name, word] (.act (.task t) a)
  | taskParameter {t : TaskId} {address value : String} (addressed : IsAddress address)
      (current : t = .monitoring → address ≠ "feedbackduration") (nonempty : value ≠ "") :
      IsBody [t.name, address, value] (.set (.task t) address value)
  /-- The older name of a parameter. -/
  | feedbackDuration {value : String} (nonempty : value ≠ "") :
      IsBody [TaskId.monitoring.name, "feedbackduration", value]
        (.set (.task .monitoring) "feedbacks-positive-duration" value)

/-- A line: between semicolons, and trimmed, a time and a body. -/
def IsLine (text : String) (due priority : Nat) (payload : CommandPayload) : Prop :=
  ∃ (fields : List String) (time : String) (body : List String),
    Text.trim text = ";".intercalate fields ∧ (∀ field ∈ fields, ';' ∉ field.toList) ∧
      fields.map Text.trim = time :: body ∧ IsDue time due priority ∧ IsBody body payload

/-! ## Times -/

theorem digitChar_spec : ∀ n < 10, n.digitChar.isDigit = true ∧ Number.digitsValue [n.digitChar] = n := by decide

theorem twoDigits_spec : ∀ n < 60, (twoDigits n).all Char.isDigit = true ∧ Number.digitsValue (twoDigits n) = n := by
  decide

/-- Two digits are the digits of the number that they write. -/
theorem twoDigits_digitsValue : ∀ a < 10, ∀ b < 10,
    twoDigits (Number.digitsValue [a.digitChar, b.digitChar]) = [a.digitChar, b.digitChar] := by decide

theorem exists_digitChar {c : Char} (h : c.isDigit = true) : ∃ n < 10, c = n.digitChar := by
  have table : ∀ n < 10, Char.ofNat (48 + n) = n.digitChar := by decide
  obtain ⟨low, high⟩ := Char.isDigit_iff_toNat.mp h
  have low : 48 ≤ c.toNat := low
  have high : c.toNat ≤ 57 := high
  refine ⟨c.toNat - 48, by omega, ?_⟩
  rw [← table _ (by omega), show 48 + (c.toNat - 48) = c.toNat by omega, Char.ofNat_toNat]

theorem isDigitField_ofList (width : Nat) {ds : List Char} (length : ds.length = width)
    (digits : ds.all Char.isDigit = true) : isDigitField width (String.ofList ds) = true := by
  rw [isDigitField, String.toList_ofList, digits, length, decide_eq_true rfl]
  rfl

theorem isDigitField_one {s : String} (h : isDigitField 1 s = true) :
    ∃ n < 10, s = String.ofList [n.digitChar] := by
  simp only [isDigitField, Bool.and_eq_true, decide_eq_true_eq] at h
  obtain ⟨c, letters⟩ := List.length_eq_one_iff.mp h.1
  obtain ⟨n, bound, rfl⟩ := exists_digitChar (List.all_eq_true.mp h.2 c (letters ▸ List.mem_cons_self))
  exact ⟨n, bound, by rw [← letters, String.ofList_toList]⟩

theorem isDigitField_two {s : String} (h : isDigitField 2 s = true) :
    s = String.ofList (twoDigits (Number.digitsValue s.toList)) := by
  simp only [isDigitField, Bool.and_eq_true, decide_eq_true_eq] at h
  obtain ⟨c, rest, letters⟩ := List.exists_cons_of_length_eq_add_one h.1
  have short : rest.length = 1 := by simpa [letters] using h.1
  obtain ⟨d, rfl⟩ := List.length_eq_one_iff.mp short
  have digits := List.all_eq_true.mp h.2
  rw [letters] at digits
  obtain ⟨a, boundA, rfl⟩ := exists_digitChar (digits c List.mem_cons_self)
  obtain ⟨b, boundB, rfl⟩ := exists_digitChar (digits d (List.mem_cons_of_mem _ List.mem_cons_self))
  rw [letters, twoDigits_digitsValue a boundA b boundB, ← letters, String.ofList_toList]

/-- A time consists of digits and colons. -/
theorem IsTime.letters {text : String} {due : Nat} (h : IsTime text due) :
    text ≠ "" ∧ ∀ c ∈ text.toList, c.isDigit = true ∨ c = ':' := by
  obtain ⟨hour, minutes, seconds⟩ := h
  rename_i h m s
  have first := (digitChar_spec h hour).1
  have second := List.all_eq_true.mp (twoDigits_spec m minutes).1
  have third := List.all_eq_true.mp (twoDigits_spec s seconds).1
  refine ⟨fun none => ?_, fun c mem => ?_⟩
  · have letters := congrArg String.toList none
    rw [String.toList_ofList] at letters
    cases letters
  · rw [String.toList_ofList] at mem
    simp only [List.mem_cons, List.mem_append] at mem
    rcases mem with rfl | rfl | mem | rfl | mem
    · exact Or.inl first
    · exact Or.inr rfl
    · exact Or.inl (second c mem)
    · exact Or.inr rfl
    · exact Or.inl (third c mem)

/-- The pieces of a time are its three numbers. -/
theorem pieces_time_iff {text : String} {a b c : List Char} :
    Text.pieces ':' text = [String.ofList a, String.ofList b, String.ofList c] ↔
      ':' ∉ a ∧ ':' ∉ b ∧ ':' ∉ c ∧ text = String.ofList (a ++ ':' :: (b ++ ':' :: c)) := by
  have join : (String.singleton ':').intercalate [String.ofList a, String.ofList b, String.ofList c] =
      String.ofList (a ++ ':' :: (b ++ ':' :: c)) := by
    refine String.toList_inj.mp ?_
    rw [String.toList_intercalate, String.toList_singleton, String.toList_ofList]
    simp [List.intercalate_cons_cons]
  rw [Text.pieces_eq_iff, join]
  simp [and_assoc]

theorem parseTime_iff {text : String} {due : Nat} : parseTime text = .ok due ↔ IsTime text due := by
  have noColon : ∀ ds : List Char, ds.all Char.isDigit = true → ':' ∉ ds := fun ds digits mem =>
    absurd (List.all_eq_true.mp digits ':' mem) (by decide)
  constructor
  · intro h
    unfold parseTime at h
    split at h
    · rename_i hour minutes seconds cut
      split at h
      · rename_i fields
        simp only [Bool.and_eq_true] at fields
        obtain ⟨⟨one, two⟩, two'⟩ := fields
        obtain ⟨n, bound, rfl⟩ := isDigitField_one one
        rw [isDigitField_two two, isDigitField_two two', pieces_time_iff] at cut
        dsimp only at h
        split at h
        · cases h
        · rename_i inRange
          rw [String.toList_ofList, (digitChar_spec n bound).2] at h
          cases h
          rw [cut.2.2.2, Nat.mul_comm n, Nat.mul_comm _ 60]
          exact .intro bound (by omega) (by omega)
      · cases h
    · cases h
  · intro h
    obtain ⟨hour, minutes, seconds⟩ := h
    rename_i h m s
    obtain ⟨digit, value⟩ := digitChar_spec h hour
    obtain ⟨digits, value'⟩ := twoDigits_spec m minutes
    obtain ⟨digits', value''⟩ := twoDigits_spec s seconds
    have one : [h.digitChar].all Char.isDigit = true := by simpa using digit
    have cut := pieces_time_iff.mpr ⟨noColon _ one, noColon _ digits, noColon _ digits', rfl⟩
    have fields : (isDigitField 1 (String.ofList [h.digitChar]) && isDigitField 2 (String.ofList (twoDigits m)) &&
        isDigitField 2 (String.ofList (twoDigits s))) = true := by
      rw [isDigitField_ofList 1 rfl one, isDigitField_ofList 2 rfl digits, isDigitField_ofList 2 rfl digits']
      rfl
    have inRange : ¬ (59 < m ∨ 59 < s) := by omega
    rw [List.singleton_append] at cut
    rw [parseTime, cut]
    dsimp only
    rw [if_pos fields, String.toList_ofList, String.toList_ofList, String.toList_ofList, value, value', value'',
      if_neg inRange, Nat.mul_comm h, Nat.mul_comm m]

theorem parsePriority_iff {ds : List Char} {n : Nat} : parsePriority (String.ofList ds) = .ok n ↔
    ds ≠ [] ∧ (∀ c ∈ ds, c.isDigit = true) ∧ Number.digitsValue ds < UInt32.size ∧ n = Number.digitsValue ds := by
  have digits : Number.isDigits ds = true ↔ ds ≠ [] ∧ ∀ c ∈ ds, c.isDigit = true := by
    simp [Number.isDigits]
  rw [parsePriority, String.toList_ofList, Number.digitsBelow?_eq (by decide)]
  by_cases numeral : Number.isDigits ds = true
  · rw [if_pos numeral]
    obtain ⟨nonempty, all⟩ := digits.mp numeral
    by_cases fits : Number.digitsValue ds < UInt32.size
    · rw [if_pos fits]
      exact ⟨fun h => by cases h; exact ⟨nonempty, all, fits, rfl⟩, fun ⟨_, _, _, same⟩ => by rw [same]⟩
    · rw [if_neg fits]
      exact ⟨nofun, fun ⟨_, _, fits', _⟩ => absurd fits' fits⟩
  · rw [if_neg numeral]
    exact ⟨nofun, fun ⟨nonempty, all, _⟩ => absurd (digits.mpr ⟨nonempty, all⟩) numeral⟩

theorem IsTime.not_mem_dash {text : String} {due : Nat} (h : IsTime text due) : '-' ∉ text.toList := by
  intro mem
  rcases h.letters.2 '-' mem with digit | colon
  · exact absurd digit (by decide)
  · exact absurd colon (by decide)

theorem parseTimePriority_iff {token : String} {due priority : Nat} :
    parseTimePriority token = .ok (due, priority) ↔ IsDue token due priority := by
  constructor
  · intro h
    unfold parseTimePriority at h
    rcases Text.cut?_cases '-' token with ⟨-, cut⟩ | ⟨time, ds, -, rfl, cut⟩
    · rw [cut] at h
      obtain ⟨n, timed, made⟩ := Except.bind_eq_ok_iff.mp h
      cases made
      exact .plain (parseTime_iff.mp timed)
    · rw [cut] at h
      obtain ⟨n, prior, rest⟩ := Except.bind_eq_ok_iff.mp h
      obtain ⟨d, timed, made⟩ := Except.bind_eq_ok_iff.mp rest
      cases made
      obtain ⟨nonempty, digits, fits, rfl⟩ := parsePriority_iff.mp prior
      have due := IsDue.prior (parseTime_iff.mp timed) nonempty digits fits
      rwa [String.toList_ofList] at due
  · intro h
    unfold parseTimePriority
    cases h with
    | plain timed =>
      have cut : Text.cut? '-' token = none := by
        rcases Text.cut?_cases '-' token with ⟨-, cut⟩ | ⟨time, ds, -, rfl, -⟩
        · exact cut
        · exact absurd (by simp) timed.not_mem_dash
      rw [cut, parseTime_iff.mpr timed]
      rfl
    | @prior time _ ds timed nonempty digits fits =>
      rw [Text.cut?_append timed.not_mem_dash, String.ofList_toList]
      dsimp only
      rw [parsePriority_iff.mpr ⟨nonempty, digits, fits, rfl⟩, parseTime_iff.mpr timed]
      rfl

/-! ## Bodies -/

theorem ofName?_iff {s : String} {t : TaskId} : TaskId.ofName? s = some t ↔ s = t.name := by
  constructor
  · intro h
    unfold TaskId.ofName? at h
    have named : t.name = s := by simpa using List.find?_some h
    exact named.symm
  · rintro rfl
    cases t <;> decide

theorem parseTask_iff {name : String} {t : TaskId} : parseTask name = .ok t ↔ name = t.name := by
  rw [← ofName?_iff, parseTask]
  cases TaskId.ofName? name <;> simp

theorem ofWord?_iff {word : String} {a : Action} : Action.ofWord? word = some a ↔ IsWord word a := by
  constructor
  · intro h
    unfold Action.ofWord? at h
    split at h
    · rename_i older
      cases h
      exact older ▸ .refresh
    · have named : a.name = word := by simpa using List.find?_some h
      exact named ▸ .name a
  · rintro (_ | _)
    · cases a <;> decide
    · decide

theorem parseAction_iff {target : Target} {word : String} {fault : LineFault} {payload : CommandPayload} :
    parseAction target word fault = .ok payload ↔
      ∃ a, IsWord word a ∧ a.allowedFor target = true ∧ payload = .act target a := by
  unfold parseAction
  cases found : Action.ofWord? word with
  | none =>
    refine ⟨nofun, fun ⟨a, spelled, _⟩ => ?_⟩
    rw [ofWord?_iff.mpr spelled] at found
    cases found
  | some a =>
    have only : ∀ {a'}, IsWord word a' → a' = a := fun spelled =>
      Option.some.inj ((ofWord?_iff.mpr spelled).symm.trans found)
    by_cases allowed : a.allowedFor target = true
    · simp only [allowed, if_true]
      constructor
      · intro h
        cases h
        exact ⟨a, ofWord?_iff.mp found, allowed, rfl⟩
      · rintro ⟨a', spelled, -, rfl⟩
        rw [only spelled]
    · simp only [allowed]
      exact ⟨nofun, fun ⟨a', spelled, allowed', _⟩ => absurd (only spelled ▸ allowed') allowed⟩

theorem isAddress_iff {text : String} : isAddress text = true ↔ IsAddress text := by
  have segment : ∀ s : String, (!s.isEmpty && s.toList.all isAddressChar) = true ↔
      s ≠ "" ∧ ∀ c ∈ s.toList, c.isAlphanum = true ∨ c = '_' := by
    intro s
    simp [isAddressChar]
  have noDash : ∀ s : String, (∀ c ∈ s.toList, c.isAlphanum = true ∨ c = '_') → '-' ∉ s.toList := by
    intro s all mem
    exact absurd (all '-' mem) (by decide)
  rw [isAddress, List.all_eq_true, IsAddress]
  simp only [segment]
  constructor
  · intro all
    obtain ⟨nonempty, -, join⟩ := Text.pieces_eq_iff.mp (Eq.refl (Text.pieces '-' text))
    exact ⟨_, nonempty, all, join⟩
  · rintro ⟨segments, nonempty, all, join⟩
    have cut : FieldKey.segments text = segments :=
      Text.pieces_eq_iff.mpr ⟨nonempty, fun s mem => noDash s (all s mem).2, join⟩
    rw [cut]
    exact all

theorem parseAddress_iff {t : TaskId} {text : String} {key : FieldKey} : parseAddress t text = .ok key ↔
    (t = .monitoring ∧ text = "feedbackduration" ∧ key = "feedbacks-positive-duration") ∨
      ((t = .monitoring → text ≠ "feedbackduration") ∧ IsAddress text ∧ key = text) := by
  rw [← isAddress_iff, parseAddress]
  by_cases older : t = .monitoring ∧ text = "feedbackduration"
  · rw [if_pos older]
    constructor
    · intro h
      cases h
      exact Or.inl ⟨older.1, older.2, rfl⟩
    · rintro (⟨-, -, rfl⟩ | ⟨current, -⟩)
      · rfl
      · exact absurd older.2 (current older.1)
  · rw [if_neg older]
    have current : t = .monitoring → text ≠ "feedbackduration" := fun here same => older ⟨here, same⟩
    cases isAddress text with
    | true =>
      constructor
      · intro h
        cases h
        exact Or.inr ⟨current, rfl, rfl⟩
      · rintro (⟨here, same, -⟩ | ⟨-, -, rfl⟩)
        · exact absurd ⟨here, same⟩ older
        · rfl
    | false =>
      refine ⟨nofun, ?_⟩
      rintro (⟨here, same, -⟩ | ⟨-, impossible, -⟩)
      · exact absurd ⟨here, same⟩ older
      · cases impossible

theorem IsWord.ne_empty {word : String} {a : Action} (h : IsWord word a) : word ≠ "" := by
  cases h with
  | name => cases a <;> decide
  | refresh => decide

theorem IsAddress.ne_empty {text : String} (h : IsAddress text) : text ≠ "" := by
  rintro rfl
  exact absurd (isAddress_iff.mpr h) (by decide)

theorem IsBody.ne_empty {fields : List String} {payload : CommandPayload} (h : IsBody fields payload) :
    ∀ field ∈ fields, field ≠ "" := by
  have parameters : ∀ name ∈ sessionParameters, name ≠ "" := by decide
  have tasks : ∀ t : TaskId, t.name ≠ "" := fun t => by cases t <;> decide
  cases h with
  | sessionAction spelled => simpa using spelled.ne_empty
  | sessionParameter known nonempty => simpa using ⟨parameters _ known, nonempty⟩
  | taskAction spelled => simpa using ⟨tasks _, spelled.ne_empty⟩
  | taskParameter addressed _ nonempty => simpa using ⟨tasks _, addressed.ne_empty, nonempty⟩
  | feedbackDuration nonempty => simpa using ⟨tasks _, nonempty⟩

theorem parseBody_iff {fields : List String} {payload : CommandPayload} :
    parseBody fields = .ok payload ↔ IsBody fields payload := by
  have sessionOnly : ∀ t : TaskId, t.name ∉ sessionParameters := fun t => by cases t <;> decide
  constructor
  · intro h
    unfold parseBody at h
    split at h
    · cases h
    · rename_i filled
      have nonempty : ∀ field ∈ fields, field ≠ "" := by
        rintro field mem rfl
        exact filled (List.any_eq_true.mpr ⟨"", mem, rfl⟩)
      split at h
      · obtain ⟨a, spelled, allowed, rfl⟩ := parseAction_iff.mp h
        exact .sessionAction spelled allowed
      · rename_i name second
        split at h
        · rename_i known
          cases h
          exact .sessionParameter (List.contains_iff_mem.mp known) (nonempty _ (by simp))
        · obtain ⟨t, named, action⟩ := Except.bind_eq_ok_iff.mp h
          obtain ⟨a, spelled, allowed, rfl⟩ := parseAction_iff.mp action
          exact parseTask_iff.mp named ▸ .taskAction spelled allowed
      · rename_i name parameter value
        obtain ⟨t, named, rest⟩ := Except.bind_eq_ok_iff.mp h
        obtain ⟨key, addressed, made⟩ := Except.bind_eq_ok_iff.mp rest
        cases made
        have filledValue : value ≠ "" := nonempty _ (by simp)
        cases parseTask_iff.mp named
        rcases parseAddress_iff.mp addressed with ⟨rfl, rfl, rfl⟩ | ⟨current, address, rfl⟩
        · exact .feedbackDuration filledValue
        · exact .taskParameter address current filledValue
      · cases h
  · intro h
    have filled : fields.any String.isEmpty = false := by
      simpa using h.ne_empty
    unfold parseBody
    rw [filled]
    cases h with
    | sessionAction spelled allowed => exact parseAction_iff.mpr ⟨_, spelled, allowed, rfl⟩
    | sessionParameter known => exact if_pos (List.contains_iff_mem.mpr known)
    | @taskAction t word a spelled allowed =>
      have unknown : ¬ sessionParameters.contains t.name = true := fun known =>
        sessionOnly t (List.contains_iff_mem.mp known)
      refine (if_neg unknown).trans ?_
      rw [parseTask_iff.mpr rfl]
      exact parseAction_iff.mpr ⟨a, spelled, allowed, rfl⟩
    | @taskParameter t address value addressed current =>
      have address := parseAddress_iff.mpr (Or.inr ⟨current, addressed, rfl⟩)
      exact Except.bind_eq_ok_iff.mpr ⟨t, parseTask_iff.mpr rfl, Except.bind_eq_ok_iff.mpr ⟨_, address, rfl⟩⟩
    | @feedbackDuration value =>
      exact Except.bind_eq_ok_iff.mpr ⟨.monitoring, parseTask_iff.mpr rfl, rfl⟩

/-! ## Lines -/

theorem parseFields_iff {line index : Nat} {fields : List String} {c : ScenarioCommand} :
    parseFields line index fields = .ok c ↔ (c.line = line ∧ c.index = index) ∧
      ∃ time body, fields = time :: body ∧ IsDue time c.dueSecond c.priority ∧ IsBody body c.payload := by
  have count : ∀ {body : List String} {payload : CommandPayload}, IsBody body payload →
      ¬ (body.length < 1 ∨ 3 < body.length) := by
    intro body payload h
    cases h <;> simp
  constructor
  · intro h
    unfold parseFields at h
    split at h
    · cases h
    · rename_i time body
      split at h
      · cases h
      · obtain ⟨⟨due, priority⟩, timed, rest⟩ := Except.bind_eq_ok_iff.mp h
        obtain ⟨payload, parsed, made⟩ := Except.bind_eq_ok_iff.mp rest
        cases made
        exact ⟨⟨rfl, rfl⟩, time, body, rfl, parseTimePriority_iff.mp timed, parseBody_iff.mp parsed⟩
  · rintro ⟨⟨rfl, rfl⟩, time, body, rfl, timed, parsed⟩
    refine (if_neg (count parsed)).trans ?_
    rw [parseTimePriority_iff.mpr timed]
    show (parseBody body >>= fun payload => pure _) = _
    rw [parseBody_iff.mpr parsed]
    rfl

/-- **The lines that are read**, and what they are read as. -/
theorem parseLine_iff {line index : Nat} {text : String} {c : ScenarioCommand} :
    parseLine line index text = .ok c ↔
      (c.line = line ∧ c.index = index) ∧ IsLine text c.dueSecond c.priority c.payload := by
  have inLine : parseLine line index text = .ok c ↔
      parseFields line index ((Text.pieces ';' (Text.trim text)).map Text.trim) = .ok c := by
    unfold parseLine
    cases parseFields line index ((Text.pieces ';' (Text.trim text)).map Text.trim) with
    | error fault => exact ⟨nofun, nofun⟩
    | ok d =>
      constructor
      · rintro ⟨⟩
        rfl
      · rintro ⟨⟩
        rfl
  rw [inLine, parseFields_iff]
  refine and_congr_right fun _ => ?_
  constructor
  · rintro ⟨time, body, cut, timed, parsed⟩
    obtain ⟨-, apart, join⟩ := Text.pieces_eq_iff.mp (Eq.refl (Text.pieces ';' (Text.trim text)))
    exact ⟨_, time, body, join, apart, cut, timed, parsed⟩
  · rintro ⟨fields, time, body, join, apart, trimmed, timed, parsed⟩
    have nonempty : fields ≠ [] := by
      rintro rfl
      cases trimmed
    have cut : Text.pieces ';' (Text.trim text) = fields := Text.pieces_eq_iff.mpr ⟨nonempty, apart, join⟩
    exact ⟨time, body, cut ▸ trimmed, timed, parsed⟩

/-! ## Canonical lines -/

/-- A field that stands in a line as it is. -/
structure IsField (text : String) : Prop where
  trimmed : Text.Trimmed text.toList
  apart : ';' ∉ text.toList

theorem IsField.trim_eq {text : String} (h : IsField text) : Text.trim text = text := by
  rw [Text.trim, h.trimmed.trimChars_eq_self, String.ofList_toList]

theorem isField_of_all {text : String} (nonempty : text ≠ "")
    (plain : ∀ c ∈ text.toList, Text.isBlank c = false ∧ c ≠ ';') : IsField text where
  trimmed :=
    { nonempty := fun none => nonempty (String.toList_inj.mp none)
      first := fun c found => (plain c (List.mem_of_mem_head? found)).1
      last := fun c found => (plain c (List.mem_of_getLast? found)).1 }
  apart mem := (plain ';' mem).2 rfl

/-- What is between two semicolons is a field once it is trimmed, if it is not blank. -/
theorem isField_trim {text : String} (apart : ';' ∉ text.toList) (nonempty : Text.trim text ≠ "") :
    IsField (Text.trim text) := by
  have letters : (Text.trim text).toList = Text.trimChars text.toList := String.toList_ofList
  refine ⟨?_, fun mem => ?_⟩
  · rw [letters]
    refine Text.trimmed_trimChars fun none => nonempty ?_
    rw [Text.trim, none]
  · rw [letters] at mem
    have middle := (List.dropWhile_sublist _).subset (List.mem_reverse.mp mem)
    exact apart ((List.dropWhile_sublist _).subset (List.mem_reverse.mp middle))

/-- The words of the grammar are fields. -/
theorem isField_words : (∀ a : Action, IsField a.name) ∧ (∀ t : TaskId, IsField t.name) ∧
    IsField "feedbacks-positive-duration" := by
  have table : ∀ text : String, text ≠ "" ∧ text.toList.all (fun c => !Text.isBlank c && c ≠ ';') = true →
      IsField text := by
    intro text ⟨nonempty, plain⟩
    refine isField_of_all nonempty fun c mem => ?_
    simpa using List.all_eq_true.mp plain c mem
  refine ⟨fun a => table _ ?_, fun t => table _ ?_, table _ (by decide)⟩
  · cases a <;> decide
  · cases t <;> decide

theorem IsBody.isField {fields : List String} {payload : CommandPayload} (h : IsBody fields payload)
    (clean : ∀ field ∈ fields, IsField field) : ∀ field ∈ payload.fields, IsField field := by
  obtain ⟨actions, tasks, renamed⟩ := isField_words
  cases h with
  | sessionAction => simpa [CommandPayload.fields] using actions _
  | sessionParameter => exact clean
  | taskAction => simpa [CommandPayload.fields] using ⟨tasks _, actions _⟩
  | taskParameter => exact clean
  | @feedbackDuration value => simpa [CommandPayload.fields] using ⟨tasks _, renamed, clean value (by simp)⟩

/-- What a body says can be said in the current words. -/
theorem IsBody.canonical {fields : List String} {payload : CommandPayload} (h : IsBody fields payload) :
    IsBody payload.fields payload := by
  cases h with
  | sessionAction _ allowed => exact .sessionAction (.name _) allowed
  | sessionParameter known nonempty => exact .sessionParameter known nonempty
  | taskAction _ allowed => exact .taskAction (.name _) allowed
  | taskParameter addressed current nonempty => exact .taskParameter addressed current nonempty
  | feedbackDuration nonempty => exact .taskParameter (isAddress_iff.mp (by decide)) (fun _ => by decide) nonempty

theorem digitsValue_toDigits (n : Nat) : Number.digitsValue (Nat.toDigits 10 n) = n := by
  have push : Number.pushDigit = fun (sofar : Nat) (c : Char) => 10 * sofar + (c.toNat - '0'.toNat) := by
    funext sofar c
    rw [Number.pushDigit, Nat.mul_comm]
  have back := Nat.ofDigitChars_ten_toDigits (n := n)
  rwa [Nat.ofDigitChars, ← push] at back

/-- The time of a command that has been read is written as it was. -/
theorem IsTime.timeText {text : String} {c : ScenarioCommand} (h : IsTime text c.dueSecond) : c.timeText = text := by
  have hour : ∀ n < 10, Nat.toDigits 10 n = [n.digitChar] := by decide
  have padded : ∀ n < 60, SessionTime.padded 2 n = String.ofList (twoDigits n) := by decide
  unfold ScenarioCommand.timeText
  generalize c.dueSecond = due at h
  cases h with
  | @intro h m s first second third =>
    rw [show (3600 * h + 60 * m + s) / 3600 = h by omega, show (3600 * h + 60 * m + s) / 60 % 60 = m by omega,
      show (3600 * h + 60 * m + s) % 60 = s by omega]
    refine String.toList_inj.mp ?_
    simp [hour h first, padded m second, padded s third, toString]

theorem IsDue.priority_lt {text : String} {due priority : Nat} (h : IsDue text due priority) :
    (∃ time, IsTime time due) ∧ priority < UInt32.size := by
  cases h with
  | plain timed => exact ⟨⟨_, timed⟩, by decide⟩
  | prior timed _ _ fits => exact ⟨⟨_, timed⟩, fits⟩

theorem IsDue.isField {text : String} {due priority : Nat} (h : IsDue text due priority) : IsField text := by
  have plain : ∀ c : Char, c.isDigit = true ∨ c = ':' ∨ c = '-' → Text.isBlank c = false ∧ c ≠ ';' := by
    rintro c (digit | rfl | rfl)
    · obtain ⟨n, bound, rfl⟩ := exists_digitChar digit
      exact (show ∀ n < 10, Text.isBlank n.digitChar = false ∧ n.digitChar ≠ ';' by decide) n bound
    · decide
    · decide
  cases h with
  | plain timed =>
    refine isField_of_all timed.letters.1 fun c mem => plain c ?_
    exact (timed.letters.2 c mem).imp_right Or.inl
  | @prior time _ ds timed _ digits _ =>
    refine isField_of_all (fun none => ?_) fun c mem => plain c ?_
    · have letters := congrArg String.toList none
      rw [String.toList_ofList] at letters
      exact absurd letters (by simp)
    · rw [String.toList_ofList] at mem
      rcases List.mem_append.mp mem with mem | mem
      · exact (timed.letters.2 c mem).imp_right Or.inl
      · rcases List.mem_cons.mp mem with rfl | mem
        · exact Or.inr (Or.inr rfl)
        · exact Or.inl (digits c mem)

/-- The due time and the priority of a command that has been read can be written out. -/
theorem IsDue.canonical {text : String} {c : ScenarioCommand} (h : IsDue text c.dueSecond c.priority) :
    IsDue s!"{c.timeText}-{c.priority}" c.dueSecond c.priority := by
  obtain ⟨⟨time, timed⟩, fits⟩ := h.priority_lt
  have value := digitsValue_toDigits c.priority
  have written : s!"{c.timeText}-{c.priority}" = String.ofList (time.toList ++ '-' :: Nat.toDigits 10 c.priority) := by
    refine String.toList_inj.mp ?_
    rw [timed.timeText]
    simp [toString, Nat.repr]
  have digits : ∀ d ∈ Nat.toDigits 10 c.priority, d.isDigit = true :=
    fun d mem => Nat.isDigit_of_mem_toDigits (by decide) (by decide) mem
  have due := IsDue.prior timed Nat.toDigits_ne_nil digits (value.symm ▸ fits)
  rw [written]
  rwa [value] at due

/-- **The canonical line** of a command that has been read says the same. -/
theorem IsLine.canonical {text : String} {c : ScenarioCommand} (h : IsLine text c.dueSecond c.priority c.payload) :
    IsLine c.canonical c.dueSecond c.priority c.payload := by
  obtain ⟨fields, time, body, -, apart, trimmed, timed, parsed⟩ := h
  have clean : ∀ field ∈ body, IsField field := by
    intro field mem
    obtain ⟨raw, listed, rfl⟩ := List.mem_map.mp (trimmed ▸ List.mem_cons_of_mem time mem)
    exact isField_trim (apart raw listed) (parsed.ne_empty _ mem)
  have written : ∀ field ∈ s!"{c.timeText}-{c.priority}" :: c.payload.fields, IsField field := by
    intro field mem
    rcases List.mem_cons.mp mem with rfl | mem
    · exact timed.canonical.isField
    · exact parsed.isField clean field mem
  have join : Text.Trimmed c.canonical.toList := by
    rw [ScenarioCommand.canonical, String.toList_intercalate]
    refine Text.Trimmed.intercalate ';' (by simp) fun part mem => ?_
    obtain ⟨field, listed, rfl⟩ := List.mem_map.mp mem
    exact (written field listed).trimmed
  refine ⟨_, _, _, ?_, fun field mem => (written field mem).apart, ?_, timed.canonical, parsed.canonical⟩
  · rw [Text.trim, join.trimChars_eq_self, String.ofList_toList]
    rfl
  · rw [List.map_congr_left fun field mem => (written field mem).trim_eq, List.map_id']

/-- **The line parser reads the grammar.**  A line is read exactly if the grammar has it, and then as what it says, with
the number and the position that it is given.  And a command that has been read from any line is read again, the same,
from its canonical line. -/
theorem parseLine_grammar (line index : Nat) (text : String) (c : ScenarioCommand) :
    (parseLine line index text = .ok c ↔
        (c.line = line ∧ c.index = index) ∧ IsLine text c.dueSecond c.priority c.payload) ∧
      (parseLine line index text = .ok c → parseLine c.line c.index c.canonical = .ok c) := by
  refine ⟨parseLine_iff, fun h => ?_⟩
  exact parseLine_iff.mpr ⟨⟨rfl, rfl⟩, (parseLine_iff.mp h).2.canonical⟩

/-- The feedback duration by its older name, with blanks. -/
def feedbackLine : ScenarioCommand :=
  ⟨65, 2, .set (.task .monitoring) "feedbacks-positive-duration" "10", 3, 0⟩

/-- It is read, and read again from the canonical line. -/
theorem parseLine_grammar_feedbackLine : parseLine 3 0 " 0:01:05-2; sysmon;feedbackduration ;10 " = .ok feedbackLine ∧
    feedbackLine.canonical = "0:01:05-2;sysmon;feedbacks-positive-duration;10" ∧
    parseLine 3 0 feedbackLine.canonical = .ok feedbackLine := by
  have read : parseLine 3 0 " 0:01:05-2; sysmon;feedbackduration ;10 " = .ok feedbackLine := by rfl
  exact ⟨read, by decide +kernel, (parseLine_grammar 3 0 _ feedbackLine).2 read⟩

end Scenario

end Tandem
