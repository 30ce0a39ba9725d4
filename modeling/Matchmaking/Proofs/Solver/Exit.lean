import Matchmaking.Proofs.Solver.Shell
import Matchmaking.Proofs.Value.Mapping

/-! When an executable's answer counts as a solution. What it prints and how it ends both have a say: a listing
counts unless a line before its heading denies that there is a solution, and an exit code that is not regular
takes back what a listing gives. The codes that stand for an infeasible and for an unbounded program are regular,
so they do not take back a listing. -/
namespace Matchmaking

open Stateful

namespace Value

variable {α β : Type} {v : Value} {items : List Value}

theorem traverse_eq_ok {read : Value → Except Failure α} {ys : List α} (walked : v.traverse read = .ok ys) :
    ∃ items, v.items? = some items ∧ items.mapM read = .ok ys := by
  rw [traverse_eq] at walked
  obtain ⟨items, found, read⟩ := bind_eq_ok.mp walked
  unfold orWrongKind at found
  split at found
  · rename_i listed
    cases found
    exact ⟨_, listed, read⟩
  · cases found

theorem traverse_of_items {read : Value → Except Failure α} {ys : List α} (listed : v.items? = some items)
    (each : items.mapM read = .ok ys) : v.traverse read = .ok ys := by
  rw [traverse_eq, listed]
  exact each

theorem items_of_not_truth (missing : v.truth = false) (listed : v.items? = some items) : items = [] := by
  cases v <;> cases listed <;> simp_all [truth, length?, textItems, rangeItems]

end Value

namespace Problem

variable {p : Problem} {streams left : Streams} {file : String} {count : Nat}

theorem unknowns_of_written (written : outcome p.toText streams = (.ok file, left)) (size : p.size = .ok count) :
    ∃ ids, p.unknowns.items? = some ids ∧ (∀ id ∈ ids, id.isText = true) ∧
      p.unknowns.traverse Value.asKey = .ok ids := by
  have lasting : p.unknowns.isStream = false := by
    unfold Problem.size at size
    cases known : p.unknowns with
    | stream =>
      rw [known] at size
      cases size
    | _ => rfl
  have walked {α : Type} {read : Value → Except Failure α} {mid mid' : Streams} {ys : List α}
      (found : outcome (Streams.walk read p.unknowns) mid = (.ok ys, mid')) : p.unknowns.traverse read = .ok ys :=
    congrArg Prod.fst ((Streams.walk_of_not_isStream lasting read mid).symm.trans found)
  obtain ⟨lines, mid, found, -⟩ := outcome_bind_ok.mp written
  obtain ⟨rows, mid, -, found⟩ := outcome_bind_ok.mp found
  obtain ⟨bounds, mid', first, found⟩ := outcome_bind_ok.mp found
  replace first := walked first
  obtain ⟨ids, listed, -⟩ := Value.traverse_eq_ok first
  have texts : ∀ id ∈ ids, id.isText = true := by
    split at found
    · obtain ⟨names, mid, second, -⟩ := outcome_bind_ok.mp found
      obtain ⟨ids', listed', named⟩ := Value.traverse_eq_ok (walked second)
      cases listed.symm.trans listed'
      refine (mapM_spec (g := fun id => id.text?.getD "") (P := fun id => id.isText = true) ?_ named).2
      intro id name read
      unfold Value.orWrongKind at read
      split at read
      · rename_i text
        cases read
        exact ⟨by rw [text]; rfl, by rw [Value.isText, text]; rfl⟩
      · cases read
    · rename_i empty
      rw [Value.items_of_not_truth (Bool.eq_false_iff.mpr empty) listed]
      simp
  refine ⟨ids, listed, texts, Value.traverse_of_items listed ?_⟩
  rw [mapM_eq_ok, List.forall₂_same]
  intro id member
  exact if_pos (Value.isKey_of_isText (texts id member))

end Problem

namespace Listing

/-- A line before the heading says that there is no solution. -/
def Denies (s : List Char) : Prop :=
  ∃ line ∈ Text.lines (before header.toList (Text.lowercase s)).1,
    sentence line = infeasibleSentence ∨ sentence line = unboundedSentence

def Selects (unknowns : Value) (s : List Char) : Prop :=
  ∃ ids, unknowns.items? = some ids ∧
    ∃ line ∈ Text.lines s, ∃ name, selectedOn? line = some name ∧ ∃ id ∈ ids, id.text? = some name

/-- A text lists a solution: no line before the heading denies that there is one, and there is the heading or a
line that selects a variable. -/
def ShowsSolution (unknowns : Value) (s : List Char) : Prop :=
  ¬Denies s ∧ (header.toList <:+: Text.lowercase s ∨ Selects unknowns s)

theorem verdict_ok_iff (said : List (List Char)) (headed : Bool) (names : List String) :
    (verdict said headed names).1.ok = true ↔
      (¬∃ line ∈ said, sentence line = infeasibleSentence ∨ sentence line = unboundedSentence) ∧
        (headed = true ∨ names ≠ []) := by
  have said_iff (text : String) : ((said.map sentence).contains text = true) ↔ ∃ line ∈ said, sentence line = text := by
    rw [List.contains_iff_mem, List.mem_map]
  unfold verdict
  split
  · rename_i infeasible
    obtain ⟨line, member, same⟩ := (said_iff _).mp infeasible
    exact iff_of_false Bool.false_ne_true fun ⟨silent, _⟩ => silent ⟨line, member, .inl same⟩
  · rename_i feasible
    split
    · rename_i unbounded
      obtain ⟨line, member, same⟩ := (said_iff _).mp unbounded
      exact iff_of_false Bool.false_ne_true fun ⟨silent, _⟩ => silent ⟨line, member, .inr same⟩
    · rename_i bounded
      have silent : ¬∃ line ∈ said, sentence line = infeasibleSentence ∨ sentence line = unboundedSentence := by
        rintro ⟨line, member, same | same⟩
        · exact feasible ((said_iff _).mpr ⟨line, member, same⟩)
        · exact bounded ((said_iff _).mpr ⟨line, member, same⟩)
      rw [and_iff_right silent]
      cases headed <;> cases names <;> simp [Status.ok]

variable {unknowns : Value} {ids : List Value}

theorem read_solution (listed : unknowns.items? = some ids) (keys : unknowns.traverse Value.asKey = .ok ids)
    (s : List Char) : ∃ status names, read (String.ofList s) (some unknowns) = .ok (status, names) ∧
      (status = .optimal ↔ ShowsSolution unknowns s) ∧ (status ≠ .optimal → status.ok = false ∧ names = []) := by
  have good : (verdict (Text.lines (before header.toList (Text.lowercase s)).1)
      (before header.toList (Text.lowercase s)).2 (selected (some (.of (ids.map (·, ())))) s)).1.ok = true ↔
      ShowsSolution unknowns s := by
    rw [verdict_ok_iff, before_found (by decide)]
    refine and_congr_right fun _ => or_congr_right ?_
    constructor
    · intro some
      obtain ⟨name, member⟩ := List.exists_mem_of_ne_nil _ some
      obtain ⟨known, found⟩ := mem_selected_keys.mp member
      obtain ⟨line, inside, selects⟩ := List.mem_filterMap.mp found
      exact ⟨ids, listed, line, inside, name, selects, known⟩
    · rintro ⟨ids', listed', line, inside, name, selects, known⟩
      cases listed.symm.trans listed'
      exact List.ne_nil_of_mem (mem_selected_keys.mpr ⟨known, List.mem_filterMap.mpr ⟨line, inside, selects⟩⟩)
  rcases verdict_ends (Text.lines (before header.toList (Text.lowercase s)).1)
      (before header.toList (Text.lowercase s)).2 (selected (some (.of (ids.map (·, ())))) s) with
    whole | ⟨status, bad, nothing⟩
  · rw [whole] at good
    exact ⟨_, _, (read_keys s keys).trans (congrArg Except.ok whole), iff_of_true rfl (good.mp rfl),
      fun other => absurd rfl other⟩
  · rw [nothing] at good
    have other : status ≠ .optimal := by
      rintro rfl
      cases bad
    exact ⟨_, _, (read_keys s keys).trans (congrArg Except.ok nothing),
      iff_of_false other fun shows => Bool.false_ne_true (bad.symm.trans (good.mpr shows)), fun _ => ⟨bad, rfl⟩⟩

end Listing

namespace Shell

variable {p : Problem} {timeLimit asked : Value} {world : World} {log : Log} {names : List String} {status : Status}

/-- The exit codes with which a listing is believed. -/
def regularCodes : List Int := [0, 1, 2, 3]

/-- A listing and an exit code come to a good status just if the listing shows a solution and the code is regular;
the status then says whether the code is the one of a solution that may not be the best. -/
theorem judge_spec (code : Int) (other : status ≠ .optimal → status.ok = false ∧ names = []) :
    ((judge code status names).1.ok = true ↔ code ∈ regularCodes ∧ status = .optimal) ∧
      ((judge code status names).1.ok = true → (judge code status names).1 = if code = 1 then .feasible else .optimal) ∧
      ((judge code status names).1.ok = false → (judge code status names).2 = []) := by
  by_cases good : status = .optimal
  · subst good
    by_cases regular : code ∈ regularCodes
    · by_cases early : code = 1 <;> simp_all [judge, regularCodes, Status.ok]
    · have taken : judge code .optimal names = (.unknown, []) := if_pos ⟨rfl, regular⟩
      rw [taken]
      exact ⟨iff_of_false Bool.false_ne_true fun ⟨member, _⟩ => regular member, by rintro ⟨⟩, fun _ => rfl⟩
  · obtain ⟨bad, nothing⟩ := other good
    have kept : judge code status names = (status, names) := by
      unfold judge
      rw [if_neg fun ⟨same, _⟩ => good same, if_neg fun ⟨same, _⟩ => good same]
    rw [kept]
    exact ⟨iff_of_false (Bool.eq_false_iff.mp bad) fun ⟨_, same⟩ => good same,
      fun fine => absurd (bad.symm.trans fine) Bool.false_ne_true, fun _ => nothing⟩

def printed (world : World) : List Char := Text.unifyLineEnds world.shell.output.toList

/-- Once the executable has ended, the run gives what its listing and its exit code come to. -/
def Reports (world : World) (status : Status) (names : List String) (result : Outcome) : Prop :=
  result.status = (judge world.shell.code status names).1 ∧
    result.selected = .list ((judge world.shell.code status names).2.map .text)

theorem outcome_announce (world : World) (message : String) (log : Log) : outcome (announce world message) log =
    (.ok ⟨⟩, if world.quiet then log else { log with messages := log.messages ++ [message] }) := by
  unfold announce
  cases world.quiet with
  | true => rfl
  | false => rfl

/-- A run fails before the executable is started, or ends with what its listing and its exit code come to. -/
theorem solve_runs (starts : world.shell.broken = false) (p : Problem) (timeLimit asked : Value) (log : Log) :
    (∃ failure left, outcome (solve p timeLimit asked world) log = (.error failure, left) ∧ left.shell = log.shell) ∨
    ∃ status names result left, outcome (solve p timeLimit asked world) log = (.ok result, left) ∧
      left.shell ≠ none ∧ (status = .optimal ↔ Listing.ShowsSolution p.unknowns (printed world)) ∧
      (status ≠ .optimal → status.ok = false ∧ names = []) ∧ Reports world status names result := by
  unfold solve
  rw [outcome_bind, outcome_lift]
  rcases isInstalled (executable asked world) world with failure | _ | _
  · exact .inl ⟨failure, log, rfl, rfl⟩
  · exact .inl ⟨_, log, rfl, rfl⟩
  · dsimp only
    rw [if_neg (by decide), outcome_bind, outcome_lift]
    rcases timeArguments timeLimit with failure | arguments
    · exact .inl ⟨failure, log, rfl, rfl⟩
    · dsimp only
      rw [outcome_bind, outcome_reading]
      rcases written : outcome p.toText log.streams with ⟨failure | file, streams⟩
      · exact .inl ⟨failure, _, rfl, rfl⟩
      · dsimp only
        rw [outcome_bind, outcome_lift]
        rcases size : p.size with failure | count
        · exact .inl ⟨failure, _, rfl, rfl⟩
        · dsimp only
          obtain ⟨ids, listed, -, keys⟩ := Problem.unknowns_of_written written size
          obtain ⟨status, names, reads, shows, other⟩ := Listing.read_solution listed keys (printed world)
          rw [outcome_bind, outcome_modify]
          dsimp only
          rw [if_neg (Bool.eq_false_iff.mp starts), outcome_bind, outcome_lift, ← printed, reads]
          dsimp only
          rw [outcome_bind, outcome_announce]
          refine .inr ⟨status, names, _, _, rfl, ?_, shows, other, rfl, rfl⟩
          dsimp only
          split <;> exact Option.some_ne_none _

/-- Once the executable has run there is a result, and the result is a solution just if the listing shows one and
the exit code is regular. So a solution comes with an exit code that stands for one unless a listing that shows
one comes with the code for an infeasible or for an unbounded program. -/
theorem solution_of_exit (p : Problem) (timeLimit asked : Value) (world : World) (log : Log)
    (starts : world.shell.broken = false) (fresh : log.shell = none) :
    ((outcome (solve p timeLimit asked world) log).2.shell ≠ none ↔
      ∃ result, (outcome (solve p timeLimit asked world) log).1 = .ok result) ∧
    ∀ result, (outcome (solve p timeLimit asked world) log).1 = .ok result →
      (result.status.ok = true ↔
        world.shell.code ∈ regularCodes ∧ Listing.ShowsSolution p.unknowns (printed world)) ∧
      (result.status.ok = true → result.status = if world.shell.code = 1 then .feasible else .optimal) ∧
      (result.status.ok = false → result.selected = .list []) ∧
      ((result.status.ok = true → world.shell.code = 0 ∨ world.shell.code = 1) ↔
        ¬((world.shell.code = 2 ∨ world.shell.code = 3) ∧ Listing.ShowsSolution p.unknowns (printed world))) := by
  rcases solve_runs starts p timeLimit asked log with
    ⟨failure, left, run, kept⟩ | ⟨status, names, result, left, run, started, shows, other, judged, selected⟩
  · rw [run]
    refine ⟨iff_of_false (fun changed => changed (kept.trans fresh)) ?_, ?_⟩
    · rintro ⟨_, ⟨⟩⟩
    · rintro _ ⟨⟩
  · rw [run]
    obtain ⟨good, best, nothing⟩ := judge_spec world.shell.code other
    rw [← judged, shows] at good
    refine ⟨iff_of_true started ⟨result, rfl⟩, ?_⟩
    rintro _ ⟨⟩
    refine ⟨good, ?_, ?_, ?_⟩
    · rw [judged]
      exact best
    · intro bad
      rw [selected, nothing (judged ▸ bad)]
      rfl
    · rw [good]
      simp only [regularCodes, List.mem_cons, List.not_mem_nil, or_false]
      constructor
      · rintro early ⟨late, listed⟩
        rcases early ⟨.inr (.inr late), listed⟩ with zero | one <;> omega
      · rintro never ⟨zero | one | late, listed⟩
        · exact .inl zero
        · exact .inr one
        · exact absurd ⟨late, listed⟩ never

/-- A listing that comes with the code for an infeasible program is reported as the best solution. -/
theorem optimal_of_infeasible_exit : ∃ (p : Problem) (world : World) (result : Outcome),
    world.shell.broken = false ∧ ({} : Log).shell = none ∧ world.shell.code = 2 ∧
    Listing.ShowsSolution p.unknowns (printed world) ∧
    (outcome (solve p .null .null world) {}).1 = .ok result ∧ result.status = .optimal := by
  let p : Problem := ⟨.list [.text "v0"], [(.text "v0", .int 1)], []⟩
  let world : World :=
    { installed := ["lp_solve"], shell := { output := "Actual values of the variables:\nv0 1\n", code := 2 } }
  have plain : p.IsPlain ["v0"] := ⟨rfl, by simp [p], by simp [p]⟩
  have fits : p.Fits := by
    have one : Numeral.Fits 1 := Numeral.fits_of_digit (by decide)
    exact ⟨by simpa [p] using one, by simp [p]⟩
  obtain ⟨-, text, written⟩ := (Problem.toText_ends plain).resolve_right fun ⟨large, _⟩ => large fits
  have shows : Listing.ShowsSolution p.unknowns (printed world) :=
    ⟨by unfold Listing.Denies; decide +kernel, .inl (by decide +kernel)⟩
  obtain ⟨-, results⟩ := solution_of_exit p .null .null world {} rfl rfl
  obtain ⟨status, names, reads, -⟩ := Listing.read_ends (printed world) ["v0"]
  have available : isAvailable .null world = .ok true := rfl
  obtain ⟨result, answers, -⟩ := solve_answers available rfl plain.unknowns written reads
  obtain ⟨left, ended⟩ := answers {}
  have found : (outcome (solve p .null .null world) {}).1 = .ok result := congrArg Prod.fst ended
  obtain ⟨good, best, -⟩ := results result found
  exact ⟨p, world, result, rfl, rfl, rfl, shows, found, best (good.mpr ⟨by decide, shows⟩)⟩

end Shell

end Matchmaking
