import Mathlib.Data.List.Induction
import Matchmaking.Proofs.Matcher.Closure
import Matchmaking.Proofs.Matcher.Sharing
import Matchmaking.Proofs.Matcher.Totals
import Matchmaking.Proofs.Problem.Reader
import Matchmaking.Proofs.Problem.Writing

/-! Texts of composed programs. In a session whose namers number rows under the usual stem, every program
with whole weights and targets is written by the rules of the format if its numbers can be written at
all, and the text tells everything about it but the weights that are zero. -/
namespace Matchmaking

open Stateful

theorem View.word_of_mem_ids {view : View} (sound : view.Sound) {id : String} (member : id ∈ view.ids) :
    Identifier.hasForm id = true ∧ Name.isWord id.toList = true := by
  obtain ⟨some, row, covered, rfl⟩ := mem_ids.mp member
  obtain ⟨tuple, placed⟩ := sound.placed covered
  refine ⟨?_, Identifier.isWord_write placed.nonneg⟩
  rw [Identifier.hasForm, Identifier.parts?_write (placed.row_ne_nil sound some) placed.nonneg]
  rfl

namespace Bench

def alone (bench : Bench) : Session := ⟨[(bench.desk.matcher, bench.notes, 0)], [bench.desk.namer]⟩

theorem alone_bench? (bench : Bench) : bench.alone.bench? 0 = some bench := rfl

theorem alone_run (bench : Bench) (actions : List Action) :
    bench.alone.run (actions.map (.act 0)) = (bench.after actions).alone := by
  induction actions generalizing bench with
  | nil => rfl
  | cons action rest ih => exact ih _

end Bench

namespace Session

/-- Matchers that have just been built, and namers that number rows under the usual stem. -/
structure IsNew (s : Session) : Prop where
  matchers : ∀ entry ∈ s.matchers, entry.2.1 = {} ∧ ∃ collections backend timeLimit,
    Keyed.IsMapping collections ∧ Matcher.build collections backend timeLimit = .ok entry.1
  namers : ∀ namer ∈ s.namers, namer.stem = Matcher.usualStem

theorem IsNew.isFresh {s : Session} (new : s.IsNew) : s.IsFresh := by
  intro entry member
  obtain ⟨notes, collections, backend, timeLimit, mapping, built⟩ := new.matchers entry member
  obtain ⟨table, -, stands⟩ := Matcher.stands_of_build mapping built
  exact ⟨List.eq_nil_iff_forall_not_mem.mpr (stands (fun _ => False) fun _ => True).rows, notes⟩

variable {start : Session}

/-- Each matcher in a session has been used by the actions that were meant for it, whatever has become of
its namer in between. -/
theorem reached (fresh : start.IsFresh) (moves : List Move) : ∀ (number : Nat) (m : Matcher) (notes : Notes)
    (shared : Nat) (namer : Namer), (start.run moves).matchers[number]? = some (m, notes, shared) →
      ∃ entry actions, start.matchers[number]? = some entry ∧ Bench.Reached entry.1 actions ⟨⟨m, namer⟩, notes⟩ ∧
        ∀ action ∈ actions, Move.act number action ∈ moves := by
  induction moves using List.reverseRecOn with
  | nil =>
    intro number m notes shared namer found
    have blank : notes = {} := (fresh _ (List.mem_of_getElem? found)).2
    rw [blank]
    exact ⟨_, [], found, .start namer, by simp⟩
  | append_singleton moves move ih =>
    have earlier (number : Nat) (m : Matcher) (notes : Notes) (shared : Nat) (namer : Namer)
        (found : (start.run moves).matchers[number]? = some (m, notes, shared)) : ∃ entry actions,
        start.matchers[number]? = some entry ∧ Bench.Reached entry.1 actions ⟨⟨m, namer⟩, notes⟩ ∧
          ∀ action ∈ actions, Move.act number action ∈ moves ++ [move] := by
      obtain ⟨entry, actions, listed, reached, meant⟩ := ih number m notes shared namer found
      exact ⟨entry, actions, listed, reached, fun action member => List.mem_append_left _ (meant action member)⟩
    have last : start.run (moves ++ [move]) = (start.run moves).after move := List.foldl_append
    intro number m notes shared namer found
    rw [last] at found
    cases move with
    | hand | claim => exact earlier number m notes shared namer found
    | act own action =>
      cases used : (start.run moves).bench? own with
      | none =>
        simp only [after, used] at found
        exact earlier number m notes shared namer found
      | some bench =>
        obtain ⟨drawn, before, -⟩ := bench?_eq_some.mp used
        simp only [after, used, put, before, List.getElem?_set] at found
        split at found
        · rename_i same
          split at found
          · cases found
            subst same
            obtain ⟨entry, actions, listed, reached, meant⟩ := ih own _ _ _ bench.desk.namer before
            refine ⟨entry, actions ++ [action], listed, (reached.act action).shared namer, ?_⟩
            refine List.forall_mem_append.mpr ⟨fun other member => List.mem_append_left _ (meant other member), ?_⟩
            simp
          · cases found
        · exact earlier number m notes shared namer found

theorem IsOrdered.stem_after {s : Session} (ordered : s.IsOrdered) {stem : String}
    (usual : ∀ namer ∈ s.namers, namer.stem = stem) (move : Move) :
    ∀ namer ∈ (s.after move).namers, namer.stem = stem := by
  have modified (shared : Nat) (change : Namer → Namer) (kept : ∀ namer, (change namer).stem = namer.stem) :
      ∀ namer ∈ s.namers.modify shared change, namer.stem = stem := by
    intro namer member
    obtain ⟨place, found⟩ := List.mem_iff_getElem?.mp member
    rw [List.getElem?_modify] at found
    obtain ⟨before, drawn, rfl⟩ := Option.map_eq_some_iff.mp found
    have same := usual before (List.mem_of_getElem? drawn)
    split
    · exact (kept before).trans same
    · exact same
  cases move with
  | hand shared => exact modified shared _ fun namer => rfl
  | claim shared name =>
    refine modified shared _ fun namer => ?_
    cases claimed : namer.claim name with
    | error failure => rfl
    | ok given => exact (Namer.claim_gives claimed).2.2.stem
  | act number action =>
    cases used : s.bench? number with
    | none =>
      simp only [Session.after, used]
      exact usual
    | some bench =>
      obtain ⟨shared, entry, drawn⟩ := bench?_eq_some.mp used
      obtain ⟨-, desk⟩ := action.run_leaves (ordered.coherent _ (List.mem_of_getElem? entry) bench.desk.namer)
      have same := bench.desk.after_stem action.call?.toList
      rw [← desk] at same
      simp only [Session.after, used, put, entry]
      intro namer member
      rcases List.mem_or_eq_of_mem_set member with old | rfl
      · exact usual namer old
      · exact same.trans (usual _ (List.mem_of_getElem? drawn))

theorem IsNew.stems (new : start.IsNew) (moves : List Move) :
    ∀ namer ∈ (start.run moves).namers, namer.stem = Matcher.usualStem := by
  induction moves using List.reverseRecOn with
  | nil => exact new.namers
  | append_singleton moves move ih =>
    rw [run, List.foldl_append]
    exact (new.isFresh.isOrdered.run moves).stem_after ih move

/-- A program that a matcher is composed to in the course of a session, in which rows of callers are over
identifiers that the matcher lists. -/
structure Composes (start : Session) (moves : List Move) (p : Problem) : Prop where
  isNew : start.IsNew
  listed : ∀ number entry call, start.matchers[number]? = some entry →
    Move.act number (.configure call) ∈ moves → call.IsListed entry.1.space.ids
  composed : ∃ number bench next, (start.run moves).bench? number = some bench ∧
    outcome Bench.problem bench = (.ok p, next)

variable {moves : List Move} {p : Problem}

/-- Such a program is closed, its variables are listed identifiers, and its rows have names that can be
written. -/
theorem Composes.closed (composes : start.Composes moves p) : ∃ ids, p.IsClosed ids ∧
    (∀ id ∈ ids, Identifier.hasForm id = true ∧ Name.isWord id.toList = true) ∧
      ∀ row ∈ p.constraints, ∃ s, row.name = .text s ∧ Name.isUsable s = true := by
  obtain ⟨number, bench, next, used, composed⟩ := composes.composed
  have fresh := composes.isNew.isFresh
  have ordered := fresh.isOrdered.run moves
  obtain ⟨shared, entry, drawn⟩ := bench?_eq_some.mp used
  obtain ⟨first, actions, listed, reached, meant⟩ := Session.reached fresh moves _ _ _ _ bench.desk.namer entry
  obtain ⟨-, collections, backend, timeLimit, mapping, built⟩ :=
    composes.isNew.matchers first (List.mem_of_getElem? listed)
  obtain ⟨table, sound, stands⟩ := Matcher.stands_of_build mapping built
  have start := stands (Constraint.IsOver (View.whole table).ids) fun _ => True
  have space : first.1.space = .whole table := start.space
  have given : ∀ call, .configure call ∈ actions → call.IsListed (View.whole table).ids := by
    intro call member
    rw [← space]
    exact composes.listed number first call listed (meant _ member)
  obtain ⟨coherent, stands⟩ := reached.keeps start fun call member desk held => Call.run_stands
    (by cases call <;> simp [Call.Counts])
    (fun desk c row namer held asked _ naming => by
      have own := asked.isOver sound held.space (given call member) held.rows
      obtain ⟨name, rfl⟩ := (Matcher.nameRow_renames naming).1
      exact own) held
  have told := Bench.problem_tells.answers coherent
  rw [composed] at told
  have names := ((ordered.names shared _ drawn).perm (rowsOf_set entry).choose_spec.1).sublist
    (List.sublist_append_right _ _)
  obtain ⟨-, each⟩ := Matcher.names_of_compose told.symm names
  refine ⟨_, stands.closed sound stands.rows told.symm, fun id member => ?_, fun row member => ?_⟩
  · exact View.word_of_mem_ids (View.sound_whole sound) (stands.active_subset sound member)
  · obtain ⟨s, named, suits⟩ := each row member
    exact ⟨s, named, suits.2 (composes.isNew.stems moves _ (List.mem_of_getElem? drawn))⟩

end Session

namespace Problem

variable {p : Problem} {ids : List String}

/-- A closed program of whole numbers whose rows have names that can be written is laid out by the rules. -/
theorem IsClosed.grammatical (closed : p.IsClosed ids) (whole : p.IsWhole)
    (words : ∀ id ∈ ids, Identifier.hasForm id = true ∧ Name.isWord id.toList = true)
    (names : ∀ row ∈ p.constraints, ∃ s, row.name = .text s ∧ Name.isUsable s = true) :
    ∃ sheet, p.IsShown sheet ∧ sheet.ids = ids ∧ sheet.IsGrammatical := by
  have weights : ∀ term ∈ p.objective, ∃ id ∈ ids, ∃ z, term = (.text id, .int z) := by
    intro term member
    have key : term.1 ∈ p.objective.keys := List.mem_map_of_mem member
    rw [closed.weights] at key
    obtain ⟨id, listed, equal⟩ := List.mem_map.mp key
    obtain ⟨z, weight⟩ := whole.weights term member
    exact ⟨id, listed, z, Prod.ext equal.symm weight⟩
  have terms : ∀ term ∈ p.terms, ∃ id n, term = (.text id, .ofNumber n) := by
    intro term member
    obtain ⟨id, -, z, rfl⟩ := weights term (List.mem_of_mem_filter member)
    exact ⟨id, .whole z, rfl⟩
  have rows : ∀ c ∈ p.constraints, ∃ row, c.IsShown row := by
    intro c member
    obtain ⟨own, unknowns, -, -⟩ := closed.rows c member
    obtain ⟨t, target⟩ := whole.targets c member
    obtain ⟨s, name, -⟩ := names c member
    exact ⟨⟨s, own, c.operator, .whole t⟩, unknowns, rfl, target, name⟩
  obtain ⟨sheet, shown, rfl⟩ := exists_shown closed.unknowns terms rows
  refine ⟨sheet, shown, rfl, words, closed.distinct, fun term member => ?_, fun row member => ?_⟩
  · have listed : (Value.text term.2, Value.ofNumber term.1) ∈ p.terms := by
      rw [shown.terms]
      exact List.mem_map_of_mem member
    obtain ⟨id, known, z, equal⟩ := weights _ (List.mem_of_mem_filter listed)
    obtain ⟨key, weight⟩ := Prod.mk.inj equal
    rw [weight] at listed
    rw [Value.text.inj key]
    exact ⟨known, z, (mem_terms_int.mp listed).2, Value.ofNumber_eq_int.mp weight⟩
  · obtain ⟨c, listed, same⟩ := exists_of_mem_right shown.rows member
    obtain ⟨own, unknowns, some, inside⟩ := closed.rows c listed
    obtain ⟨t, target⟩ := whole.targets c listed
    obtain ⟨s, name, usable⟩ := names c listed
    rw [same.unknowns] at unknowns
    rw [same.target] at target
    rw [same.name] at name
    rw [List.map_injective_iff.mpr (fun _ _ => Value.text.inj) unknowns, Value.text.inj name]
    exact ⟨usable, some, inside, t, Value.ofNumber_eq_int.mp target⟩

/-- Two programs that differ at most in weights of zero and in what is not written of rows. -/
structure Alike (p q : Problem) : Prop where
  unknowns : p.unknowns = q.unknowns
  terms : p.terms = q.terms
  rows : List.Forall₂ (fun c d => c.name = d.name ∧ c.unknowns = d.unknowns ∧ c.operator = d.operator ∧
    c.target = d.target) p.constraints q.constraints

theorem IsShown.alike {q : Problem} {sheet : Sheet} (shown : p.IsShown sheet) (shown' : q.IsShown sheet) :
    p.Alike q where
  unknowns := shown.unknowns.trans shown'.unknowns.symm
  terms := shown.terms.trans shown'.terms.symm
  rows := (forall₂_comp shown.rows shown'.rows.flip).imp fun c d both => by
    obtain ⟨row, here, there⟩ := both
    exact ⟨here.name.trans there.name.symm, here.unknowns.trans there.unknowns.symm,
      here.operator.trans there.operator.symm, here.target.trans there.target.symm⟩

end Problem

namespace Session

variable {start : Session} {moves : List Move} {p : Problem}

/-- A composed program of whole numbers that can be written is laid out by the rules. -/
theorem Composes.shown (composes : start.Composes moves p) (whole : p.IsWhole) (fits : p.Fits) :
    ∃ sheet, p.IsShown sheet ∧ sheet.IsGrammatical ∧ Answers p.toText sheet.text := by
  obtain ⟨ids, closed, words, names⟩ := composes.closed
  obtain ⟨sheet, shown, -, grammatical⟩ := closed.grammatical whole words names
  exact ⟨sheet, shown, grammatical, (Problem.toText_shown shown).1 ((shown.fits_iff whole).mpr fits)⟩

/-- The text of a composed program of whole numbers is made by the rules and can be read back: other such
programs with this text are alike. Each variable has one bound in it and stands once in its last line. -/
theorem text_restores (composes : start.Composes moves p) (whole : p.IsWhole) (fits : p.Fits) :
    ∃ sheet : Sheet, p.IsShown sheet ∧ sheet.IsGrammatical ∧ Answers p.toText sheet.text ∧
      Sheet.read? sheet.text = some sheet ∧
      (∀ id ∈ sheet.ids,
        Sheet.occurrences (id ++ " <= 1;") sheet.text = 1 ∧ (Sheet.listed sheet.text).count id = 1) ∧
      ∀ (start' : Session) (moves' : List Move) (q : Problem), start'.Composes moves' q → q.IsWhole → q.Fits →
        Answers q.toText sheet.text → p.Alike q := by
  obtain ⟨sheet, shown, grammatical, written⟩ := composes.shown whole fits
  refine ⟨sheet, shown, grammatical, written, grammatical.read?_text, fun id member => ?_, ?_⟩
  · refine ⟨grammatical.occurrences_boundLine member, ?_⟩
    rw [grammatical.listed_text (List.ne_nil_of_mem member)]
    exact List.count_eq_one_of_mem grammatical.distinct member
  · intro start' moves' q composes' whole' fits' same
    obtain ⟨sheet', shown', grammatical', written'⟩ := composes'.shown whole' fits'
    have equal := grammatical'.read?_text
    rw [written'.unique same, grammatical.read?_text] at equal
    rw [← Option.some.inj equal] at shown'
    exact shown.alike shown'

theorem text_restores_of_grid : ∃ m, Matcher.build Matcher.grid .null .null = .ok m ∧
    (Bench.alone ⟨⟨m, {}⟩, {}⟩).Composes (Matcher.gridCalls.map fun call => .act 0 (.configure call))
      Matcher.gridProgram ∧ Matcher.gridProgram.IsWhole ∧ Matcher.gridProgram.Fits ∧
    Matcher.gridProgram.IsShown Matcher.gridSheet ∧ Matcher.gridSheet.IsGrammatical ∧
    Matcher.gridSheet.lines = ["/* Objective function */", "min: +7 v0x0 -3 v0x1 +2 v0x2 +5 v1x0;", "",
      "/* Constraints */", "constraint0: +v0x2 = 0;", "count0: +v0x0 +v0x1 +v0x2 = 1;", "count1: +v1x0 = 1;",
      "v0x0 <= 1;", "v0x1 <= 1;", "v0x2 <= 1;", "v1x0 <= 1;", "", "int v0x0,v0x1,v0x2,v1x0;"] ∧
    Answers Matcher.gridProgram.toText Matcher.gridSheet.text ∧
    Sheet.read? Matcher.gridSheet.text = some Matcher.gridSheet ∧
    Sheet.occurrences "v0x2 <= 1;" Matcher.gridSheet.text = 1 := by
  obtain ⟨table, bench, built, -, -, -, coherent, composed, left⟩ := Bench.exists_grid
  have new : (Bench.alone ⟨⟨{ space := .whole table }, {}⟩, {}⟩).IsNew := by
    refine ⟨fun entry member => ?_, fun namer member => ?_⟩
    · rw [List.mem_singleton.mp member]
      exact ⟨rfl, _, _, _, Matcher.grid_isMapping, built⟩
    · rw [List.mem_singleton.mp member]
      rfl
  have told := Bench.problem_tells.answers coherent
  rw [composed] at told
  have composes : (Bench.alone ⟨⟨{ space := .whole table }, {}⟩, {}⟩).Composes
      (Matcher.gridCalls.map fun call => .act 0 (.configure call)) Matcher.gridProgram := by
    refine ⟨new, fun number entry call _ member => ?_, 0, bench, _, ?_, Prod.ext told rfl⟩
    · obtain ⟨own, listed, same⟩ := List.mem_map.mp member
      cases same
      exact Matcher.gridCalls_listed _ listed _
    · rw [← left, ← Bench.alone_bench?, ← Bench.alone_run, List.map_map]
      rfl
  have whole := Matcher.gridProgram_isPlain.isWhole
  obtain ⟨sheet, shown, grammatical, written, reads, once, -⟩ := text_restores composes whole Matcher.gridProgram_fits
  cases shown.unique Matcher.gridProgram_shown
  exact ⟨_, built, composes, whole, Matcher.gridProgram_fits, shown, grammatical, by decide +kernel, written, reads,
    (once "v0x2" (by decide)).1⟩

end Session

end Matchmaking
