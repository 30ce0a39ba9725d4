import Matchmaking.Proofs.Problem.Writing
import Matchmaking.Proofs.Solver.Listing
import Matchmaking.Solver.Backend

/-! Solving by an executable. If the program can be written, what the executable prints is read and judged by its
exit code; where it prints a listing, the variables that are selected are those that the listing shows as
chosen. Otherwise nothing is started. -/
namespace Matchmaking

open Stateful

theorem outcome_reading {α : Type} (read : Reading α) (log : Log) : outcome (reading read) log =
    ((outcome read log.streams).1, { log with streams := (outcome read log.streams).2 }) := by
  rw [reading, outcome_bind, outcome_get]
  rcases found : outcome read log.streams with ⟨result, streams⟩
  have step : read.run.run log.streams = (result, streams) := found
  simp only [step, outcome_bind, outcome_modify, outcome_lift]

theorem reading_answers {α : Type} {read : Reading α} {a : α} (answers : Answers read a) :
    Answers (reading read) a := by
  intro log
  obtain ⟨streams, found⟩ := answers log.streams
  exact ⟨{ log with streams }, by rw [outcome_reading, found]⟩

theorem reading_fails {α : Type} {read : Reading α} {failure : Failure} (fails : Fails read failure) :
    Fails (reading read) failure := by
  intro log
  obtain ⟨streams, found⟩ := fails log.streams
  exact ⟨{ log with streams }, by rw [outcome_reading, found]⟩

theorem announce_answers (world : World) (message : String) : Answers (announce world message) ⟨⟩ := by
  unfold announce
  cases world.quiet with
  | true => exact .pure _
  | false => exact .modify _

/-- The executable starts, ends as it does when it has found a solution, and prints a listing. -/
structure ShellAnswer.Prints (answer : ShellAnswer) (parts : Listing.Parts) : Prop where
  starts : answer.broken = false
  code : answer.code = 0 ∨ answer.code = 1
  output : answer.output = String.ofList parts.output

namespace Shell

variable {p : Problem} {ids selection other : List String} {chosen : String → Bool} {parts : Listing.Parts}
  {world : World} {status : Status} {failure : Failure} {text : String}

theorem judge_ends (code : Int) (none : status.ok = false → selection = []) :
    (judge code status selection).1.ok = true ∧ (judge code status selection).2 = selection ∨
      (judge code status selection).1.ok = false ∧ (judge code status selection).2 = [] := by
  unfold judge
  split
  · exact .inr ⟨rfl, rfl⟩
  · split
    · exact .inl ⟨rfl, rfl⟩
    · cases good : status.ok with
      | true => exact .inl ⟨rfl, rfl⟩
      | false => exact .inr ⟨rfl, none good⟩

theorem judge_optimal {code : Int} (good : code = 0 ∨ code = 1) (selection : List String) :
    (judge code .optimal selection).1.ok = true ∧ (judge code .optimal selection).2 = selection := by
  rcases good with rfl | rfl <;> exact ⟨rfl, rfl⟩

theorem judge_perm (code : Int) (status : Status) (same : selection.Perm other) :
    (judge code status selection).1 = (judge code status other).1 ∧
      (judge code status selection).2.Perm (judge code status other).2 := by
  unfold judge
  split
  · exact ⟨rfl, .refl _⟩
  · split <;> exact ⟨rfl, same⟩

/-- What a run does when the executable starts. What is printed only matters for what it is read as. -/
theorem solve_eq (available : isAvailable .null world = .ok true) (starts : world.shell.broken = false) (p : Problem) :
    ∃ (tell : Status → Nat → String) (complaint : List String) (raw : Value), ∀ output status selection,
      Listing.read (String.ofList (Text.unifyLineEnds output.toList)) (some p.unknowns) = .ok (status, selection) →
      solve p .null .null { world with shell.output := output } = do
        let file ← reading p.toText
        let _ ← p.size
        modify fun log => { log with shell := some ⟨[executable .null world, .text "-S3"], file⟩ }
        let (status, selection) := judge world.shell.code status selection
        let message := tell status selection.length
        announce world message
        return { status, selected := .list (selection.map .text), progress := message :: complaint, raw } := by
  refine ⟨fun status count => s!"lp_solve solution: status={status.label}, selected={count}", ?_⟩
  apply Exists.intro
  apply Exists.intro
  intro output status selection reads
  have installed : isInstalled (executable .null { world with shell.output := output })
      { world with shell.output := output } = .ok true := available
  have limits : timeArguments .null = .ok [] := rfl
  dsimp only at installed
  unfold solve
  simp only [installed, limits, liftM_ok, pure_bind]
  simp only [starts, reads, liftM_ok, pure_bind]
  rfl

/-- A program whose text can be found is solved as the listing and the exit code say. -/
theorem solve_answers (available : isAvailable .null world = .ok true) (starts : world.shell.broken = false)
    (unknowns : p.unknowns = .list (ids.map .text)) (written : Answers p.toText text)
    (reads : Listing.read (String.ofList (Text.unifyLineEnds world.shell.output.toList)) (some p.unknowns) =
      .ok (status, selection)) :
    ∃ outcome, Answers (solve p .null .null world) outcome ∧
      outcome.status = (judge world.shell.code status selection).1 ∧
      outcome.selected = .list ((judge world.shell.code status selection).2.map .text) := by
  obtain ⟨tell, complaint, raw, run⟩ := solve_eq available starts p
  have size : p.size = .ok (ids.map Value.text).length := by
    simp [Problem.size, unknowns, Value.length, Value.length?, Value.orWrongKind]
  have first : solve p .null .null world = _ := run world.shell.output status selection reads
  rw [first]
  exact ⟨_, .bind (reading_answers written) (.bind (.lift size) (.bind (.modify _)
    (.bind (announce_answers _ _) (.pure _)))), rfl, rfl⟩

theorem solve_fails (available : isAvailable .null world = .ok true) (unwritten : Fails p.toText failure) :
    Fails (solve p .null .null world) failure := by
  have installed : isInstalled (executable .null world) world = .ok true := available
  have limits : timeArguments .null = .ok [] := rfl
  unfold solve
  exact .bind_later (.lift installed) (.bind_later (.lift limits) (.bind (reading_fails unwritten)))

/-- Whoever does not mind the order of a selection does not notice when the executable prints what is read alike
but for the order. -/
theorem solve_bind_congr {α : Type} {next : Outcome → Run α} {output : String}
    (available : isAvailable .null world = .ok true) (starts : world.shell.broken = false)
    (reads : Listing.read (String.ofList (Text.unifyLineEnds world.shell.output.toList)) (some p.unknowns) =
      .ok (status, selection))
    (reads' : Listing.read (String.ofList (Text.unifyLineEnds output.toList)) (some p.unknowns) = .ok (status, other))
    (same : selection.Perm other) (alike : ∀ outcome : Outcome,
      outcome.status = (judge world.shell.code status selection).1 →
      next { outcome with selected := .list ((judge world.shell.code status selection).2.map .text) } =
        next { outcome with selected := .list ((judge world.shell.code status other).2.map .text) }) :
    (solve p .null .null world >>= next) = (solve p .null .null { world with shell.output := output } >>= next) := by
  obtain ⟨tell, complaint, raw, run⟩ := solve_eq available starts p
  obtain ⟨judged, names⟩ := judge_perm world.shell.code status same
  have first : solve p .null .null world = _ := run world.shell.output status selection reads
  rw [first, run output status other reads']
  simp only [bind_assoc, pure_bind, ← judged, ← names.length_eq]
  refine bind_congr fun file => bind_congr fun _ => bind_congr fun _ => bind_congr fun _ => ?_
  exact alike ⟨_, .null, _, _, .null⟩ rfl

theorem solve_ends (plain : p.IsPlain ids) (nodup : ids.Nodup) (form : ∀ id ∈ ids, Identifier.hasForm id = true)
    (available : isAvailable .null world = .ok true) (prints : world.shell.Prints parts)
    (shows : parts.Shows ids chosen p.rowNames) :
    p.Fits ∧ (∃ (outcome : Outcome) (found : List String), Answers (solve p .null .null world) outcome ∧
      outcome.solution = .ok (found.map .text) ∧ found.Perm (ids.filter chosen)) ∨
    ¬p.Fits ∧ Fails (solve p .null .null world) .numeralTooLong := by
  rcases Problem.toText_ends plain with ⟨fits, text, written⟩ | ⟨large, unwritten⟩
  · obtain ⟨found, reads, same⟩ := Listing.read_shows nodup form plain.rowNames_apart shows
    have output : String.ofList (Text.unifyLineEnds world.shell.output.toList) = String.ofList parts.output := by
      rw [prints.output, String.toList_ofList]
      exact congrArg String.ofList (Text.unifyLineEnds_joined shows.lines)
    rw [← output, ← plain.unknowns] at reads
    obtain ⟨outcome, answers, status, selected⟩ := solve_answers available prints.starts plain.unknowns written reads
    obtain ⟨good, all⟩ := judge_optimal prints.code found
    rw [← status] at good
    rw [all] at selected
    refine .inl ⟨fits, outcome, found, answers, ?_, same⟩
    rw [Outcome.solution, if_pos good, selected]
    rfl
  · exact .inr ⟨large, solve_fails available unwritten⟩

end Shell

end Matchmaking
