import Matchmaking.Proofs.Matcher.Fitness

/-! Calls that are refused. A call for a single row, a single composer or a count looks for everything that may be
wrong before it changes anything. When it fails, for whatever cause, it has changed neither its matcher nor the notes
about it, and neither its namer nor the matchers that draw from it, too. -/
namespace Matchmaking

open Stateful

namespace Matcher

open Setup

/-- A name that is not that of a collection is refused first, then a count and then a padding. -/
theorem setCount_atomic (collection count padding : Value) : Atomic (setCount collection count padding) := by
  apply Atomic.get_bind
  intro desk
  apply Atomic.lift_bind
  intro known
  cases known with
  | false => exact .throw _
  | true => exact .lift_bind fun rule => .lift_bind fun padding => .of_succeeds fun _ => ⟨rule, _, rfl⟩

theorem exclude_atomic (restriction : Keyed Value) (name : Value) : Atomic (exclude restriction name) := by
  rw [exclude_eq restriction name 0]
  exact requirePart_atomic

theorem addRow_taken {desk : Desk} {c : Constraint} {s : String} (own : c.name.truth = true)
    (checked : Name.check c.name = .ok s) (taken : desk.namer.isTaken s = true)
    (known : checkVariables desk.matcher.space c.unknowns = .ok ()) :
    outcome (addRow c) desk = (.error (.nameTaken c.name), desk) := by
  have naming : nameRow desk.namer c = .error (.nameTaken c.name) := by
    simp only [nameRow, own, Namer.claim, checked, taken, if_true, ok_bind]
    rfl
  simp [addRow, outcome_bind, known, naming]

end Matcher

/-- A call for one row or one composer, or for a count. -/
def Call.IsSingle : Call → Prop
  | .addComposer .. | .addRow _ | .exclude .. | .setCount .. => True
  | .excludeMarkers _ | .includeMarkers .. | .require .. => False

namespace Call

theorem run_atomic {call : Call} (single : call.IsSingle) : Setup.Atomic call.run := by
  cases call with
  | addComposer restriction weight => exact Matcher.addComposer_atomic.bind_return Answer.composer
  | addRow source =>
    apply Setup.Atomic.get_bind
    intro desk
    apply Setup.Atomic.lift_bind
    intro row
    exact (Matcher.addRow_atomic row).bind_return fun added => Answer.row (some added)
  | exclude restriction name => exact (Matcher.exclude_atomic restriction name).bind_return Answer.row
  | setCount collection count padding =>
    exact (Matcher.setCount_atomic collection count padding).bind_return Answer.count
  | excludeMarkers | includeMarkers | require => cases single

end Call

namespace Bench

variable {bench next : Bench} {failure : Failure}

/-- A composer that is refused leaves the notes, too. They are forgotten once it is known to be right. -/
theorem addComposer_refused {restriction : Keyed Value} {weight : Value}
    (failed : outcome (addComposer restriction weight) bench = (.error failure, next)) : next = bench := by
  rcases outcome_bind_error.mp failed with offered | ⟨composer, mid, -, later⟩
  · rw [outcome_atDesk, Matcher.outcome_offer] at offered
    exact (congrArg Prod.snd offered).symm
  · rcases outcome_bind_error.mp later with forgotten | ⟨_, last, -, enlisted⟩
    · cases forgotten
    · obtain ⟨answer, desk, gives⟩ := Matcher.enlist_succeeds composer last.desk
      rw [outcome_atDesk, show outcome _ last.desk = _ from gives] at enlisted
      cases enlisted

theorem configure_refused {call : Call} (single : call.IsSingle)
    (failed : outcome (configure call) bench = (.error failure, next)) : next = bench := by
  cases added : call.weight? with
  | none =>
    rw [configure_eq added, outcome_atDesk] at failed
    obtain ⟨refused, rfl⟩ := Prod.mk.inj failed
    have same := Call.run_atomic single bench.desk failure _ (Prod.ext refused rfl)
    exact congrArg (Bench.mk · bench.notes) same
  | some weight =>
    cases call with
    | addComposer restriction weight =>
      rcases outcome_bind_error.mp failed with refused | ⟨_, _, -, answered⟩
      · exact addComposer_refused refused
      · cases answered
    | includeMarkers => cases single
    | _ => cases added

end Bench

namespace Session

variable {s : Session} {number : Nat} {bench : Bench}

theorem put_self (used : s.bench? number = some bench) : s.put number bench = s := by
  obtain ⟨shared, entry, drawn⟩ := bench?_eq_some.mp used
  have own : s.matchers.set number (bench.desk.matcher, bench.notes, shared) = s.matchers := by
    obtain ⟨inside, stands⟩ := List.getElem?_eq_some_iff.mp entry
    rw [← stands, List.set_getElem_self]
  have names : s.namers.set shared bench.desk.namer = s.namers := by
    obtain ⟨inside, stands⟩ := List.getElem?_eq_some_iff.mp drawn
    rw [← stands, List.set_getElem_self]
  simp [put, entry, own, names]

/-- Whatever has been done in a session, a call for one row, for one composer or for a count that fails leaves the
rows of its matcher, the composers, the counts and the names as they were, with the number that the next name is looked
for from. The matcher composes what it composed before, and the other matchers are left alone, also those that draw
from the same namer. -/
theorem same_of_refused {call : Call} (single : call.IsSingle) (used : s.bench? number = some bench)
    {failure : Failure} {next : Bench}
    (failed : outcome (Action.configure call).run bench = (.error failure, next)) :
    next.desk.matcher.constraints = bench.desk.matcher.constraints ∧
    next.desk.matcher.composers = bench.desk.matcher.composers ∧
    next.desk.matcher.counts = bench.desk.matcher.counts ∧
    next.desk.namer.taken = bench.desk.namer.taken ∧ next.desk.namer.hand = bench.desk.namer.hand ∧
    outcome Bench.problem next = outcome Bench.problem bench ∧
    s.after (.act number (.configure call)) = s := by
  have refused : next = bench := by
    rcases outcome_bind_error.mp failed with refused | ⟨_, _, -, answered⟩
    · exact Bench.configure_refused single refused
    · cases answered
  have kept : s.after (.act number (.configure call)) = s := by
    simp only [after, used, failed, refused]
    exact put_self used
  subst refused
  exact ⟨rfl, rfl, rfl, rfl, rfl, rfl, kept⟩

def guardRow : Call :=
  .addRow (.parts [(.text "variables", .list []), (.text "operator", .operator .eq), (.text "target", .int 0),
    (.text "name", .text "guard")] [])

/-- The second of two matchers that share a namer is refused a name that has been claimed there. -/
theorem same_of_used_name : ∃ m s bench failure next,
    Matcher.build [(.text "a", .list [.text "x"])] .null .null = .ok m ∧
    (twins m).run [.claim 0 (.text "guard")] = s ∧ s.bench? 1 = some bench ∧
    outcome (Action.configure guardRow).run bench = (.error failure, next) ∧
    outcome Bench.problem next = outcome Bench.problem bench ∧ s.after (.act 1 (.configure guardRow)) = s := by
  obtain ⟨m, mapping, built, -⟩ := Matcher.build_single
  have word : Name.isUsable "guard" = true := by decide +kernel
  obtain ⟨name, checked⟩ := Name.check_text_iff.mpr word
  obtain ⟨⟨⟩, -⟩ := Name.check_eq_ok checked
  have free : Namer.isTaken {} "guard" = false :=
    Bool.eq_false_iff.mpr fun taken => List.not_mem_nil (Namer.isTaken_iff.mp taken)
  obtain ⟨⟨name, namer⟩, claimed⟩ := Namer.claim_iff.mpr ⟨"guard", checked, free⟩
  obtain ⟨⟨⟩, -, gives⟩ := Namer.claim_gives claimed
  have reached : (twins m).run [.claim 0 (.text "guard")] = ⟨[(m, {}, 0), (m, {}, 0)], [namer]⟩ := by
    simp [run, after, twins, claimed]
  let row : Constraint := ⟨[], .eq, .int 0, .text "guard", .bool false⟩
  have refused : outcome (Matcher.addRow row) ⟨m, namer⟩ = (.error (.nameTaken row.name), ⟨m, namer⟩) :=
    Matcher.addRow_taken (by decide) checked (gives.isTaken_iff.mpr (.inr rfl)) rfl
  have run : outcome guardRow.run ⟨m, namer⟩ = (.error (.nameTaken row.name), ⟨m, namer⟩) := by
    have read : Call.rowFrom m (.parts [(.text "variables", .list []), (.text "operator", .operator .eq),
      (.text "target", .int 0), (.text "name", .text "guard")] []) = .ok row := rfl
    simp only [guardRow, Call.run, outcome_bind, outcome_get, outcome_lift, read, refused]
  obtain ⟨notes, failed⟩ := (Action.fails_iff (Bench.coherent_fresh ⟨m, namer⟩)).mpr run
  have used : bench? ⟨[(m, {}, 0), (m, {}, 0)], [namer]⟩ 1 = some ⟨⟨m, namer⟩, {}⟩ := rfl
  have single : guardRow.IsSingle := trivial
  obtain ⟨-, -, -, -, -, problem, session⟩ := same_of_refused single used failed
  exact ⟨m, _, _, _, _, built, reached, used, failed, problem, session⟩

end Session

end Matchmaking
