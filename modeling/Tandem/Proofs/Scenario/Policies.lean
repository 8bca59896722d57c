import Mathlib.Data.List.Forall2
import Tandem.Proofs.Scenario.Lines
import Tandem.Scenario.Load
/-!
# The two load policies

Both policies read the same lines.  What a line says, and what it is refused for, does not depend on its place among the
commands (`readCommand_index`), so the lines fall into those that are kept, `soundLines`, and those that are refused
before any of them is numbered.  The lenient policy returns what the first say.  The strict one returns the same
commands unless there is something to report; it then reports the first refusal or, if no line is refused, the first
problem of the scenario as a whole.
-/

namespace Tandem

namespace Scenario

/-! ## One line -/

/-- A command sets no parameter that its task is not known to have. -/
def Passes (known : ParameterCheck) (c : ScenarioCommand) : Prop :=
  ∀ t parameter value, c.payload = .set (.task t) parameter value → known t parameter = true

/-- A numbered line reads as a command, which passes the check. -/
def ReadsAs (known : ParameterCheck) (line : Nat × String) (c : ScenarioCommand) : Prop :=
  parseLine line.1 c.index line.2 = .ok c ∧ Passes known c

/-- What a numbered line is refused for, if it is. -/
def refusal? (known : ParameterCheck) (line : Nat × String) : Option Fault :=
  match readCommand known line.1 0 line.2 with
  | .ok _ => none
  | .error fault => some fault

theorem checkParameter_iff {known : ParameterCheck} {c d : ScenarioCommand} :
    checkParameter known c = .ok d ↔ c = d ∧ Passes known c := by
  unfold checkParameter Passes
  split
  · rename_i t parameter value payload
    simp only [payload, CommandPayload.set.injEq, Target.task.injEq]
    split
    · rename_i yes
      simp only [Except.ok.injEq]
      refine ⟨fun same => ⟨same, ?_⟩, And.left⟩
      rintro _ _ _ ⟨rfl, rfl, rfl⟩
      exact yes
    · rename_i no
      exact ⟨nofun, fun ⟨_, passes⟩ => absurd (passes t parameter value ⟨rfl, rfl, rfl⟩) no⟩
  · rename_i other
    simp only [Except.ok.injEq]
    exact ⟨fun same => ⟨same, fun t parameter value payload => absurd payload (other t parameter value)⟩, And.left⟩

theorem readCommand_iff {known : ParameterCheck} {line index : Nat} {text : String} {c : ScenarioCommand} :
    readCommand known line index text = .ok c ↔ parseLine line index text = .ok c ∧ Passes known c := by
  rw [readCommand]
  change parseLine line index text >>= checkParameter known = .ok c ↔ _
  rw [Except.bind_eq_ok_iff]
  simp only [checkParameter_iff]
  exact ⟨fun ⟨_, parsed, same, passes⟩ => same ▸ ⟨parsed, passes⟩, fun ⟨parsed, passes⟩ => ⟨c, parsed, rfl, passes⟩⟩

theorem parseFields_index (line index : Nat) (fields : List String) :
    parseFields line index fields = (parseFields line 0 fields).map (fun c => { c with index := index }) := by
  unfold parseFields
  cases fields with
  | nil => rfl
  | cons time body =>
    dsimp only
    split
    · rfl
    · cases parseTimePriority time with
      | error fault => rfl
      | ok due =>
        cases parseBody body with
        | error fault => rfl
        | ok payload => rfl

/-- The place of a command decides neither whether its line is read nor what it is refused for. -/
theorem readCommand_index (known : ParameterCheck) (line index : Nat) (text : String) :
    readCommand known line index text = (readCommand known line 0 text).map (fun c => { c with index := index }) := by
  unfold readCommand parseLine
  rw [parseFields_index]
  cases parseFields line 0 ((Text.pieces ';' (Text.trim text)).map Text.trim) with
  | error fault => rfl
  | ok c =>
    change checkParameter known { c with index := index } = (checkParameter known c).map _
    unfold checkParameter
    dsimp only
    split
    · split <;> rfl
    · rfl

/-- A line that is not refused says one command in each place. -/
theorem readCommand_of_refusal_none {known : ParameterCheck} {line : Nat × String} (h : refusal? known line = none)
    (index : Nat) :
    ∃ c, readCommand known line.1 index line.2 = .ok c ∧ c.index = index ∧ ReadsAs known line c := by
  rw [readCommand_index]
  unfold refusal? at h
  split at h
  · rename_i c read
    have placed : readCommand known line.1 index line.2 = .ok { c with index := index } := by
      rw [readCommand_index, read]
      rfl
    exact ⟨{ c with index := index }, by rw [read]; rfl, rfl, readCommand_iff.mp placed⟩
  · cases h

theorem readCommand_of_refusal {known : ParameterCheck} {line : Nat × String} {fault : Fault}
    (h : refusal? known line = some fault) (index : Nat) : readCommand known line.1 index line.2 = .error fault := by
  unfold refusal? at h
  split at h
  · cases h
  · rename_i read
    cases h
    rw [readCommand_index, read]
    rfl

/-- A line is refused exactly if it says nothing that passes the check. -/
theorem refusal?_eq_none_iff {known : ParameterCheck} {line : Nat × String} :
    refusal? known line = none ↔ ∃ c, ReadsAs known line c := by
  constructor
  · intro sound
    obtain ⟨c, -, -, reading⟩ := readCommand_of_refusal_none sound 0
    exact ⟨c, reading⟩
  · rintro ⟨c, reading⟩
    have read := readCommand_iff.mpr reading
    cases refused : refusal? known line with
    | none => rfl
    | some fault => rw [readCommand_of_refusal refused] at read; cases read

/-! ## The lines of a text -/

/-- The lines that carry commands and are not refused, in file order. -/
def soundLines (known : ParameterCheck) (text : String) : List (Nat × String) :=
  (numberedLines text).filter (fun line => (refusal? known line).isNone)

/-- What the refused lines are refused for, in file order. -/
def refusals (known : ParameterCheck) (text : String) : List Fault :=
  (numberedLines text).filterMap (refusal? known)

/-- Lines are counted from one, and those with nothing to read are left out. -/
theorem mem_numberedLines {text body : String} {line : Nat} :
    (line, body) ∈ numberedLines text ↔
      1 ≤ line ∧ (Text.pieces '\n' text)[line - 1]? = some body ∧ isIgnorable body = false := by
  unfold numberedLines
  rw [List.mem_filterMap]
  constructor
  · rintro ⟨⟨piece, number⟩, mem, kept⟩
    obtain ⟨least, place⟩ := List.mk_mem_zipIdx_iff_le_and_getElem?_sub.mp mem
    split at kept
    · cases kept
    · rename_i heard
      cases kept
      exact ⟨least, place, by simpa using heard⟩
  · rintro ⟨least, place, heard⟩
    exact ⟨(body, line), List.mk_mem_zipIdx_iff_le_and_getElem?_sub.mpr ⟨least, place⟩, by simp [heard]⟩

theorem numberedLines_pairwise (text : String) : (numberedLines text).Pairwise (fun a b => a.1 < b.1) := by
  unfold numberedLines
  rw [List.pairwise_filterMap]
  have ordered : ((Text.pieces '\n' text).zipIdx 1).Pairwise (fun a b => a.2 < b.2) := by
    rw [← List.pairwise_map (f := Prod.snd) (R := (· < ·)), List.zipIdx_map_snd]
    exact List.pairwise_lt_range'
  refine ordered.imp fun {a b} before a' keptA b' keptB => ?_
  split at keptA
  · cases keptA
  · split at keptB
    · cases keptB
    · cases keptA
      cases keptB
      exact before

/-! ## Reading under each policy -/

/-- The lenient policy keeps what the sound lines say and numbers it on from what it kept before. -/
theorem readLines_skipWithWarning (known : ParameterCheck) (lines : List (Nat × String)) (kept : Nat)
    (acc : List ScenarioCommand) :
    ∃ cs, readLines .skipWithWarning known lines kept acc = .ok (acc.reverse ++ cs) ∧
      List.Forall₂ (ReadsAs known) (lines.filter (fun line => (refusal? known line).isNone)) cs ∧
      cs.map (·.index) = List.range' kept cs.length := by
  induction lines generalizing kept acc with
  | nil => exact ⟨[], by simp [readLines], .nil, rfl⟩
  | cons line lines ih =>
    unfold readLines
    cases refused : refusal? known line with
    | none =>
      obtain ⟨c, read, place, reading⟩ := readCommand_of_refusal_none refused kept
      obtain ⟨cs, rest, all, places⟩ := ih (kept + 1) (c :: acc)
      refine ⟨c :: cs, ?_, ?_, ?_⟩
      · rw [read]
        dsimp only
        rw [rest, List.reverse_cons, List.append_assoc, List.singleton_append]
      · rw [List.filter_cons_of_pos (by simp [refused])]
        exact .cons reading all
      · rw [List.map_cons, places, place, List.length_cons, List.range'_succ]
    | some fault =>
      obtain ⟨cs, rest, all, places⟩ := ih kept acc
      refine ⟨cs, ?_, ?_, places⟩
      · rw [readCommand_of_refusal refused]
        exact rest
      · rwa [List.filter_cons_of_neg (by simp [refused])]

/-- The strict policy reads as the lenient one does until a line is refused. -/
theorem readLines_failFast (known : ParameterCheck) (lines : List (Nat × String)) (kept : Nat)
    (acc : List ScenarioCommand) :
    readLines .failFast known lines kept acc =
      match lines.filterMap (refusal? known) with
      | [] => readLines .skipWithWarning known lines kept acc
      | fault :: _ => .error fault := by
  induction lines generalizing kept acc with
  | nil => rfl
  | cons line lines ih =>
    cases refused : refusal? known line with
    | none =>
      obtain ⟨c, read, -, -⟩ := readCommand_of_refusal_none refused kept
      rw [List.filterMap_cons_none refused, readLines, readLines, read]
      exact ih (kept + 1) (c :: acc)
    | some fault =>
      rw [List.filterMap_cons_some refused, readLines, readCommand_of_refusal refused]

/-- What is loaded is what the sound lines say, under either policy. -/
theorem readsAs_of_load {policy : LoadPolicy} {known : ParameterCheck} {text : String} {commands : List ScenarioCommand}
    (loaded : load policy known text = .ok commands) :
    List.Forall₂ (ReadsAs known) (soundLines known text) commands := by
  obtain ⟨cs, read, all, -⟩ := readLines_skipWithWarning known (numberedLines text) 0 []
  obtain ⟨kept, lines, checked⟩ := Except.bind_eq_ok_iff.mp loaded
  obtain rfl : kept = commands := by
    split at checked
    · cases checked
    · cases checked
      rfl
  have lenient : readLines .skipWithWarning known (numberedLines text) 0 [] = .ok kept := by
    cases policy with
    | skipWithWarning => exact lines
    | failFast =>
      rw [readLines_failFast] at lines
      split at lines
      · exact lines
      · cases lines
  rw [lenient, List.reverse_nil, List.nil_append] at read
  cases read
  exact all

/-- Each command that is loaded is what some line says. -/
theorem exists_readsAs_of_load {policy : LoadPolicy} {known : ParameterCheck} {text : String}
    {commands : List ScenarioCommand} (loaded : load policy known text = .ok commands) :
    ∀ c ∈ commands, ∃ line, ReadsAs known line c := by
  have all := readsAs_of_load loaded
  clear loaded
  generalize soundLines known text = lines at all
  induction all with
  | nil => exact List.forall_mem_nil _
  | cons reading _ ih => exact List.forall_mem_cons.mpr ⟨⟨_, reading⟩, ih⟩

/-- For every text and every check, the lenient policy succeeds with what the sound lines say, in file order and
numbered from zero; the strict policy fails with the first refusal, or else with the first problem of that list, or else
returns that list. -/
theorem load_policies (known : ParameterCheck) (text : String) :
    (soundLines known text).Pairwise (fun a b => a.1 < b.1) ∧
    (∀ line body, (line, body) ∈ soundLines known text ↔
      1 ≤ line ∧ (Text.pieces '\n' text)[line - 1]? = some body ∧ isIgnorable body = false ∧
        ∃ c, ReadsAs known (line, body) c) ∧
    ∃ cs, load .skipWithWarning known text = .ok cs ∧
      List.Forall₂ (fun line c => ReadsAs known line c ∧ c.line = line.1) (soundLines known text) cs ∧
      cs.map (·.index) = List.range cs.length ∧
      load .failFast known text =
        match refusals known text ++ (problems cs).map Problem.fault with
        | [] => .ok cs
        | fault :: _ => .error fault := by
  refine ⟨(numberedLines_pairwise text).filter _, fun line body => ?_, ?_⟩
  · rw [soundLines, List.mem_filter, mem_numberedLines, Option.isNone_iff_eq_none, refusal?_eq_none_iff]
    simp only [and_assoc]
  · obtain ⟨cs, read, all, places⟩ := readLines_skipWithWarning known (numberedLines text) 0 []
    rw [List.reverse_nil, List.nil_append] at read
    have lenient : load .skipWithWarning known text = .ok cs := by
      rw [load, read]
      rfl
    have strict : load .failFast known text =
        match refusals known text ++ (problems cs).map Problem.fault with
        | [] => .ok cs
        | fault :: _ => .error fault := by
      rw [load, readLines_failFast, read, refusals]
      cases (numberedLines text).filterMap (refusal? known) with
      | cons fault faults => rfl
      | nil =>
        dsimp only [List.nil_append, bind, Except.bind]
        cases problems cs with
        | nil => rfl
        | cons problem rest => rfl
    refine ⟨cs, lenient, all.imp fun line c reading => ⟨reading, ?_⟩, by rw [places, List.range_eq_range'], strict⟩
    exact (parseLine_iff.mp reading.1).1.1

end Scenario

end Tandem
