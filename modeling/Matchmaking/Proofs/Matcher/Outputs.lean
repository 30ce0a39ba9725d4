import Matchmaking.Proofs.Matcher.Printing
import Matchmaking.Proofs.Matcher.Solving

/-! Solving with an executable, whatever it prints and however it ends. Either there is no solution, and then
nothing is selected, or there are different tuples in the order of the program's variables, and behind the
heading of a listing its lines may stand in any order and number. -/
namespace Matchmaking

open Stateful

namespace Matcher

variable {table : Table} {m : Matcher}

/-- With whole rows, rules and weights there is a program that can be written as far as its numbers fit. -/
theorem Holds.compose_shown (sound : table.Sound) (held : m.Holds table Constraint.IsWhole)
    (stands : m.Stands table (Constraint.Has fun v => ∃ z, v = .int z) (Count.Has fun v => ∃ z, v = .int z))
    (taken : Roster) : ∃ p sheet, m.compose taken = .ok p ∧ p.unknowns = .list (m.active.map .text) ∧
      p.IsShown sheet ∧ (sheet.Fits ↔ p.Fits) := by
  obtain ⟨rows, composed, kept⟩ := stands.compose_has sound Value.isKind_whole taken
  obtain ⟨objective, found, terms⟩ := objective_ok (fun composer listed => (held.composers composer listed).checked)
    fun composer listed => (held.composers composer listed).weight
  rw [found] at composed
  let p : Problem := ⟨.list (m.active.map .text), objective, rows⟩
  have made : m.compose taken = .ok p := composed
  obtain ⟨sheet, shown, -⟩ := Problem.exists_shown (p := p) rfl
    (fun term member => by
      obtain ⟨id, z, rfl⟩ := terms term (List.mem_of_mem_filter member)
      exact ⟨id, .whole z, rfl⟩)
    fun c member => (kept p made c member).exists_shown Value.isKind_whole
  have whole : p.IsWhole := {
    weights := fun term member => by
      obtain ⟨id, z, rfl⟩ := terms term member
      exact ⟨z, rfl⟩
    targets := fun c member => (kept p made c member).target }
  exact ⟨p, sheet, made, rfl, shown, shown.fits_iff whole⟩

end Matcher

namespace Desk

variable {table : Table} {kind : Constraint → Prop} {rule : Count → Prop} {m : Matcher} {namer : Namer}
  {selection other : List String} {world : World} {p : Problem} {text : String}

theorem perm_of_subset (nodup : m.active.Nodup) (once : selection.Nodup) (subset : selection ⊆ m.active) :
    selection.Perm (m.active.filter (selection.contains ·)) := by
  refine (List.perm_ext_iff_of_nodup once (nodup.filter _)).mpr fun id => ?_
  rw [List.mem_filter, List.contains_iff_mem]
  exact ⟨fun member => ⟨subset member, member⟩, And.right⟩

/-- The order of the selection makes no difference to what is delivered. -/
theorem delivered_perm (sound : table.Sound)
    (small : ∀ entry ∈ table.collections, entry.2.size ≤ 10 ^ Numeral.digitLimit) (stands : m.Stands table kind rule)
    (once : selection.Nodup) (subset : selection ⊆ m.active) (same : selection.Perm other) {outcome : Outcome}
    (good : outcome.status.ok = true) : ∃ tuples,
      List.Forall₂ m.Decodes (m.active.filter (selection.contains ·)) tuples ∧
      delivered m { outcome with selected := .list (selection.map .text) } = pure ⟨tuples, m.space.names⟩ ∧
      delivered m { outcome with selected := .list (other.map .text) } = pure ⟨tuples, m.space.names⟩ := by
  have nodup := stands.nodup_active sound
  have order := perm_of_subset nodup once subset
  obtain ⟨tuples, decoded⟩ := exists_forall₂ fun id member =>
    Matcher.decodes_active sound small stands (List.mem_of_mem_filter (p := (selection.contains ·)) member)
  have solution (names : List String) :
      Outcome.solution { outcome with selected := .list (names.map .text) } = .ok (names.map .text) := by
    rw [Outcome.solution, if_pos good]
    rfl
  exact ⟨tuples, decoded, delivered_eq (solution _) nodup order decoded,
    delivered_eq (solution _) nodup (same.symm.trans order) decoded⟩

/-- Whatever the executable prints and however it ends, there is no solution and nothing is selected, or different
tuples of active variables are found in the order of these. -/
theorem solveProgram_ends (sound : table.Sound)
    (small : ∀ entry ∈ table.collections, entry.2.size ≤ 10 ^ Numeral.digitLimit) (stands : m.Stands table kind rule)
    (timeLimit : m.timeLimit = .null) (some : m.active ≠ []) (unknowns : p.unknowns = .list (m.active.map .text))
    (written : Answers p.toText text) (available : Shell.isAvailable .null world = .ok true)
    (starts : world.shell.broken = false) :
    (∃ outcome, Fails (solveProgram ⟨m, namer⟩ m.active p Registry.standard Registry.preferred .null world)
      (.infeasible outcome) ∧ outcome.selected = .list []) ∨
    ∃ ids tuples, ids.Sublist m.active ∧ List.Forall₂ m.Decodes ids tuples ∧
      tuples.Pairwise (fun tuple tuple' => Value.equal (.tuple tuple) (.tuple tuple') = false) ∧
      Answers (solveProgram ⟨m, namer⟩ m.active p Registry.standard Registry.preferred .null world)
        ⟨tuples, m.space.names⟩ := by
  obtain ⟨status, selection, reads, once, subset, none⟩ :=
    Listing.read_ends (Text.unifyLineEnds world.shell.output.toList) m.active
  rw [← unknowns] at reads
  obtain ⟨outcome, answers, judged, selected⟩ := Shell.solve_answers available starts unknowns written reads
  rw [solveProgram_eq timeLimit some]
  rcases Shell.judge_ends world.shell.code none with ⟨good, all⟩ | ⟨bad, nothing⟩
  · rw [← judged] at good
    rw [all] at selected
    have nodup := stands.nodup_active sound
    obtain ⟨tuples, decoded, delivers, -⟩ := delivered_perm sound small stands once subset (.refl _) good
    refine .inr ⟨_, tuples, List.filter_sublist, decoded, ?_, answers.bind ?_⟩
    · exact pairwise_of_forall₂ (fun first second => first.apart sound stands second) decoded (nodup.filter _)
    · rw [← selected] at delivers
      exact delivers ▸ .pure _
  · rw [← judged] at bad
    refine .inl ⟨outcome, .bind_later answers (.bind (.lift ?_)), by rw [selected, nothing]; rfl⟩
    rw [Outcome.solution, bad, if_neg Bool.false_ne_true]

/-- Lines behind the heading may be rearranged. -/
theorem solveProgram_rearranged (sound : table.Sound)
    (small : ∀ entry ∈ table.collections, entry.2.size ≤ 10 ^ Numeral.digitLimit) (stands : m.Stands table kind rule)
    (timeLimit : m.timeLimit = .null) (some : m.active ≠ []) (unknowns : p.unknowns = .list (m.active.map .text))
    (available : Shell.isAvailable .null world = .ok true) (starts : world.shell.broken = false) {output : String}
    (rearranged : Listing.Rearranged world.shell.output output) :
    solveProgram ⟨m, namer⟩ m.active p Registry.standard Registry.preferred .null { world with shell.output := output } =
      solveProgram ⟨m, namer⟩ m.active p Registry.standard Registry.preferred .null world := by
  obtain ⟨status, selection, other, reads, reads', same⟩ := rearranged.read m.active
  obtain ⟨_, _, again, once, subset, none⟩ :=
    Listing.read_ends (Text.unifyLineEnds world.shell.output.toList) m.active
  cases reads.symm.trans again
  rw [← unknowns] at reads reads'
  rw [solveProgram_eq timeLimit some, solveProgram_eq timeLimit some]
  refine (Shell.solve_bind_congr available starts reads reads' same fun outcome judged => ?_).symm
  have order := (Shell.judge_perm world.shell.code status same).2
  rcases Shell.judge_ends world.shell.code none with ⟨good, all⟩ | ⟨-, nothing⟩
  · rw [all] at order ⊢
    obtain ⟨tuples, -, first, second⟩ := delivered_perm sound small stands once subset order (judged ▸ good)
    exact first.trans second.symm
  · rw [nothing] at order ⊢
    rw [order.nil_eq]

end Desk

namespace Bench

variable {table : Table} {start : Matcher} {actions : List Action} {bench : Bench}

theorem Reached.timeLimit (reached : Reached start actions bench) : bench.desk.matcher.timeLimit = start.timeLimit := by
  let unchanged (m : Matcher) : Prop := m.timeLimit = start.timeLimit
  have kept (call : Call) (desk : Desk) (held : unchanged desk.matcher) : unchanged (outcome call.run desk).2.matcher :=
    call.run_keeps (fun next => unchanged next.matcher) (fun mid next edit held => by cases edit <;> exact held) held
  have both : bench.IsCoherent ∧ unchanged bench.desk.matcher := reached.keeps rfl fun call _ desk => kept call desk
  exact both.2

theorem Reached.isWhole (reached : Reached start actions bench) (fresh : start.Holds table Constraint.IsWhole)
    (whole : ∀ call, .configure call ∈ actions → call.IsWhole) : bench.desk.matcher.Holds table Constraint.IsWhole :=
  (reached.keeps fresh fun call member _ => Call.run_whole (whole call member)).2

/-- A coherent bench is left alike, whatever the world is that its program is solved in. -/
theorem solve_leaves (coherent : bench.IsCoherent) {p : Problem} (composed : bench.desk.problem = .ok p) :
    ∃ next, ∀ registry backend timeLimit world, outcome (solve registry backend timeLimit world) bench =
      (.ok (bench.desk.solveProgram bench.desk.matcher.active p registry backend timeLimit world), next) := by
  obtain ⟨notes, found, coherent⟩ := problem_tells bench coherent
  obtain ⟨notes', found', -⟩ := active_tells ⟨bench.desk, notes⟩ coherent
  refine ⟨⟨bench.desk, notes'⟩, fun registry backend timeLimit world => ?_⟩
  rw [solve, outcome_bind, found, composed]
  dsimp only
  rw [outcome_bind, found']
  rfl

/-- Whatever has been configured and asked before, a program is composed, and it is solved with the executable unless
a number in it has too many digits. Whatever the executable prints and however it ends, there is no solution and
nothing is selected, or different tuples of active variables are found in the order of these; and it is all the same
if lines behind the heading are rearranged. -/
theorem solved_of_output {collections : Keyed Value} {backend : Value} {world : World} (mapping : collections.IsMapping)
    (built : Matcher.build collections backend .null = .ok start)
    (small : ∀ given ∈ collections, ∀ items, given.2.items = .ok items → items.length < 10 ^ Numeral.digitLimit)
    (reached : Reached start actions bench) (whole : ∀ call, .configure call ∈ actions → call.IsWhole)
    (some : bench.desk.matcher.active ≠ []) (available : Shell.isAvailable .null world = .ok true)
    (starts : world.shell.broken = false) : ∃ p run next next',
      outcome problem bench = (.ok p, next) ∧
      outcome (solve Registry.standard Registry.preferred .null world) bench = (.ok run, next') ∧
      (¬p.Fits → Fails run .numeralTooLong) ∧
      (p.Fits → (∃ outcome, Fails run (.infeasible outcome) ∧ outcome.selected = .list []) ∨
        ∃ ids tuples, ids.Sublist bench.desk.matcher.active ∧ List.Forall₂ bench.desk.matcher.Decodes ids tuples ∧
          tuples.Pairwise (fun tuple tuple' => Value.equal (.tuple tuple) (.tuple tuple') = false) ∧
          Answers run ⟨tuples, bench.desk.matcher.space.names⟩) ∧
      ∀ output, Listing.Rearranged world.shell.output output →
        outcome (solve Registry.standard Registry.preferred .null { world with shell.output := output }) bench =
          (.ok run, next') := by
  obtain ⟨table, sound, given, timeLimit, fresh⟩ := Matcher.holds_of_build mapping built
  have limited := Desk.small_of_given given small
  have held := reached.isWhole (fresh _) whole
  have begin : start.Stands table (Constraint.Has fun v => ∃ z, v = .int z) (Count.Has fun v => ∃ z, v = .int z) :=
    { (fresh _).stands with
      counts := fun entry member => Count.isWhole_iff.mp ((fresh Constraint.IsWhole).counts entry member) }
  obtain ⟨coherent, stands⟩ := reached.has Value.isKind_whole begin fun call member => (whole call member).has
  have unlimited := reached.timeLimit.trans timeLimit
  obtain ⟨p, sheet, composed, unknowns, shown, fits⟩ := held.compose_shown sound stands bench.desk.namer.taken
  obtain ⟨written, unwritten⟩ := Problem.toText_shown shown
  rw [fits] at written unwritten
  obtain ⟨notes, found, -⟩ := problem_tells bench coherent
  obtain ⟨next, solved⟩ := solve_leaves coherent (show bench.desk.problem = .ok p from composed)
  refine ⟨p, _, _, next, by rw [found, Desk.problem, composed], solved _ _ _ _, fun large => ?_, fun fits => ?_, ?_⟩
  · rw [Desk.solveProgram_eq unlimited some]
    exact .bind (Shell.solve_fails available (unwritten large))
  · exact Desk.solveProgram_ends sound limited stands unlimited some unknowns (written fits) available starts
  · intro output rearranged
    rw [solved, Desk.solveProgram_rearranged sound limited stands unlimited some unknowns available starts rearranged]

/-- Two tuples of a space of six are found, even if the lines behind the heading stand the other way round and some
of them are printed twice. -/
theorem solved_of_output_of_grid : ∃ start bench run next next',
    Matcher.build Matcher.grid .null .null = .ok start ∧ Reached start (Matcher.gridCalls.map .configure) bench ∧
    outcome problem bench = (.ok Matcher.gridProgram, next) ∧
    outcome (solve Registry.standard Registry.preferred .null Desk.gridWorld) bench = (.ok run, next') ∧
    Answers run ⟨[[.text "x", .text "v"], [.text "y", .text "u"]], [.text "a", .text "b"]⟩ ∧
    outcome (solve Registry.standard Registry.preferred .null { Desk.gridWorld with
      shell.output := String.ofList (Text.joined (Desk.gridListing.preamble ++ [Listing.Parts.variablesHeading] ++
        (Desk.gridListing.rows ++ Listing.Parts.rowsHeading :: Desk.gridListing.values.reverse ++
          Desk.gridListing.values))) }) bench = (.ok run, next') := by
  obtain ⟨table, bench, built, sound, made, reached, coherent, composed, -⟩ := exists_grid
  have filled : bench.desk.matcher.active ≠ [] := by
    rw [made.active]
    exact List.cons_ne_nil _ _
  have whole := Action.forall_configure Matcher.gridCalls_whole
  obtain ⟨p, run, next, next', found, solved, -, -, alike⟩ := solved_of_output Matcher.grid_isMapping built
    Matcher.grid_small reached whole filled (show Shell.isAvailable .null Desk.gridWorld = .ok true from rfl) rfl
  have told := problem_tells.answers coherent
  rw [found, composed] at told
  cases told
  have answers : Answers run ⟨[[.text "x", .text "v"], [.text "y", .text "u"]], [.text "a", .text "b"]⟩ := by
    obtain ⟨_, ends⟩ := solve_leaves coherent composed
    cases (ends _ _ _ _).symm.trans solved
    exact Desk.gridProgram_solved made bench.desk.namer
  have rearranged := Listing.Parts.rearranged Desk.gridListing_shows.lines (Desk.gridListing.rows ++
    Listing.Parts.rowsHeading :: Desk.gridListing.values.reverse ++ Desk.gridListing.values) fun line => by
      simp only [List.mem_append, List.mem_cons, List.mem_reverse]
      tauto
  exact ⟨_, bench, run, next, next', built, reached, found, solved, answers, alike _ rearranged⟩

end Bench

namespace Desk

/-- Two weights that can be written may add up to one that cannot. Then there is neither a solution nor none,
although the executable could be started. -/
theorem undecided_of_large_sum : ∃ start m world,
    Matcher.build [(.text "a", .list [.text "x"])] .null .null = .ok start ∧
    Matcher.Reached start [.addComposer [] (.int (9 * 10 ^ 4299)), .addComposer [] (.int (9 * 10 ^ 4299))] m ∧
    Numeral.Fits (9 * 10 ^ 4299) ∧ m.active = ["v0"] ∧ Shell.isAvailable .null world = .ok true ∧
    world.shell.broken = false ∧
    (¬∃ outcome, Fails (solve ⟨m, {}⟩ Registry.standard Registry.preferred .null world) (.infeasible outcome)) ∧
    ¬∃ found, Answers (solve ⟨m, {}⟩ Registry.standard Registry.preferred .null world) found := by
  obtain ⟨fits, large⟩ := fits_nine (k := 4299) rfl
  obtain ⟨start, m, built, reached, timeLimit, active, composed⟩ := composed_twice (9 * 10 ^ 4299)
  let world : World := { installed := ["lp_solve"] }
  have available : Shell.isAvailable .null world = .ok true := rfl
  have some : m.active ≠ [] := by rw [active]; exact List.cons_ne_nil _ _
  let n : Number := .whole (9 * 10 ^ 4299 + 9 * 10 ^ 4299)
  have positive : (9 * 10 ^ 4299 + 9 * 10 ^ 4299 : Int) ≠ 0 := by
    have base : (0 : Int) < 10 ^ 4299 := Int.pow_pos (by decide)
    omega
  have shown : Problem.IsShown ⟨.list [.text "v0"], [(.text "v0", .ofNumber n)], []⟩ ⟨[(n, "v0")], [], ["v0"]⟩ :=
    Problem.shown_single (Bool.eq_false_iff.mpr (mt Value.equal_zero_iff.mp positive))
  have unwritten := (Problem.toText_shown shown).2 fun both => large (both.1 _ List.mem_cons_self)
  have fails := solve_fails timeLimit some (composed ({} : Namer).taken) (Shell.solve_fails available unwritten)
  obtain ⟨log, ended⟩ := fails {}
  refine ⟨start, m, world, built, reached, fits, active, available, rfl, ?_, ?_⟩
  · rintro ⟨outcome, other⟩
    obtain ⟨log', ended'⟩ := other {}
    cases ended.symm.trans ended'
  · rintro ⟨found, answers⟩
    obtain ⟨log', ended'⟩ := answers {}
    cases ended.symm.trans ended'

end Desk

end Matchmaking
