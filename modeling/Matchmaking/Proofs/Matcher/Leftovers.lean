import Matchmaking.Proofs.Matcher.Reporting

/-! What a call that fails leaves behind. The parts before the one that failed stay made, with their rows, their
composers and the names taken for the rows, and nothing else has changed. So a call that fails has changed nothing
only if these parts add nothing, as when the first part fails. -/
namespace Matchmaking

open Stateful

namespace Part

/-- Of parts made one after the other the first that fails changes nothing, and those behind it are not made. -/
theorem mapM_fails {parts : List Part} {desk next : Desk} {failure : Failure}
    (failed : outcome (parts.mapM run) desk = (.error failure, next)) :
    ∃ before part after added, parts = before ++ part :: after ∧ (before.mapM run).Gives desk added next ∧
      outcome part.run next = (.error failure, next) := by
  obtain ⟨before, part, after, added, mid, split, made, failed⟩ := outcome_mapM_error.mp failed
  obtain rfl := part.run_atomic mid failure next failed
  exact ⟨before, part, after, added, split, made, failed⟩

end Part

namespace Call

/-- A call of several parts that fails leaves what the parts before the failing one have added, and no more. -/
theorem left_of_fails {call : Call} {found : Except Failure (List Part)} (made : call.parts? = some found)
    {failure : Failure} {desk next : Desk} (failed : outcome call.run desk = (.error failure, next)) :
    (found = .error failure ∧ next = desk) ∨ ∃ before part after added, found = .ok (before ++ part :: after) ∧
      (before.mapM Part.run).Gives desk added next ∧ outcome part.run next = (.error failure, next) ∧
      desk.Grows (added.flatMap (·.rows)) (added.flatMap (·.composers)) next := by
  obtain ⟨answer, runs⟩ := run_parts made
  rw [runs] at failed
  rcases outcome_bind_error.mp failed with unread | ⟨parts, mid, read, failed⟩
  · rw [outcome_lift, Prod.mk.injEq] at unread
    exact .inl ⟨unread.1, unread.2.symm⟩
  · rw [outcome_lift, Prod.mk.injEq] at read
    obtain ⟨rfl, rfl⟩ := read
    rcases outcome_bind_error.mp failed with failed | ⟨_, _, -, ⟨⟩⟩
    obtain ⟨before, part, after, added, rfl, gives, stuck⟩ := Part.mapM_fails failed
    exact .inr ⟨before, part, after, added, rfl, gives, stuck, Part.mapM_grows gives⟩

variable {table : Table}

/-- Two elements from a stream for a collection that has the first of them only. -/
def twoChoices : Call := .require .eq [(.text "a", .stream 0 [.text "x", .text "nope"])] (.int 1) .null

theorem fit_twoChoices (sound : table.Sound) (namer : Namer) : twoChoices.IsFit table namer := by
  have mapping : Keyed.IsMapping [(Value.text "a", Value.stream 0 [.text "x", .text "nope"])] := ⟨by decide, by decide⟩
  have lists : Keyed.IsMapping [(Value.text "a", [Value.text "x", .text "nope"])] := ⟨by decide, by decide⟩
  have reads := Table.reads_lists sound lists (by simp [Value.shown?]) (by simp [Value.quoted?])
  refine ⟨mapping, reads, ?_, fun place _ => ⟨.null, rfl, .inl rfl⟩⟩
  rintro ⟨⟩

theorem misnames_twoChoices (sound : table.Sound) {roster : Roster} (shape : table.collections = [(.text "a", roster)])
    (keys : roster.keys = [.text "x"]) : twoChoices.Misnames table := by
  have lists : Keyed.IsMapping [(Value.text "a", [Value.text "x", .text "nope"])] := ⟨by decide, by decide⟩
  refine ⟨by decide, fun knows => ?_⟩
  obtain ⟨collection, inside, -, holds⟩ := (Table.knows_lists sound lists).mp knows _ List.mem_cons_self
  rw [shape, List.mem_singleton] at inside
  have held := holds (.text "nope") (by simp)
  rw [inside, Table.holds, keys] at held
  exact absurd held (by decide)

end Call

namespace Part

variable {table : Table} {roster : Roster}

def firstChoice : Part := .row .eq [(.text "a", .list [.text "x"])] (.int 1) .null 2 0

theorem firstChoice_passes (sound : table.Sound) (shape : table.collections = [(.text "a", roster)])
    (keys : roster.keys = [.text "x"]) : firstChoice.Passes table := by
  have lists : Keyed.IsMapping [(Value.text "a", [Value.text "x"])] := ⟨by decide, by decide⟩
  have ids : (View.whole table).ids = ["v0"] := View.ids_single shape (by rw [← Roster.length_keys, keys]; rfl)
  refine ⟨(Table.knows_lists sound lists).mpr fun entry member => ?_, fun view narrowed id listed => ?_⟩
  · rw [List.mem_singleton.mp member]
    refine ⟨(.text "a", roster), by rw [shape]; exact List.mem_singleton_self _, Value.same_refl rfl, fun e chosen => ?_⟩
    rw [List.mem_singleton.mp chosen, Table.holds, keys]
    decide
  · have inside := View.ids_subset_whole sound (.subset .whole narrowed) listed
    have own := inside
    rw [ids, List.mem_singleton] at own
    rw [own] at inside ⊢
    exact ((View.contains_plain_iff (View.sound_whole sound)).mpr ⟨inside, [0], rfl⟩).1

theorem firstChoice_adds (sound : table.Sound) (shape : table.collections = [(.text "a", roster)])
    (keys : roster.keys = [.text "x"]) {desk next : Desk} (space : desk.matcher.space = .whole table) {added : Added}
    (gives : firstChoice.run.Gives desk added next) : added.rows ≠ [] := by
  have lists : Keyed.IsMapping [(Value.text "a", [Value.text "x"])] := ⟨by decide, by decide⟩
  simp only [firstChoice, run, Setup.gives_bind, Setup.gives_pure] at gives
  obtain ⟨answer, mid, made, rfl, -⟩ := gives
  obtain ⟨view, narrowed, made⟩ := Matcher.requirePart_cases made
  rw [space] at narrowed
  have member : [Value.text "x"] ∈ table.rows := by
    rw [Table.mem_rows, shape]
    exact ⟨List.cons_ne_nil _ _, .cons (by rw [keys]; exact List.mem_singleton_self _) .nil⟩
  have has : view.has [.text "x"] = true := by
    rw [View.has_subset (View.sound_whole sound) narrowed member, View.has_whole sound member, Bool.true_and]
    refine (Table.lies_lists sound lists).mpr fun entry listed x inside _ => ?_
    rw [shape] at inside
    rw [List.mem_singleton.mp listed, List.mem_singleton.mp inside]
    exact ⟨.text "x", List.mem_singleton_self _, Value.same_refl rfl⟩
  have reached : View.Of table view := .subset .whole narrowed
  have listed := (View.mem_ids_iff (reached.sound sound)).mpr ⟨_, by rwa [reached.table_eq], has, rfl⟩
  split at made
  · rename_i empty
    rw [View.isEmpty_iff] at empty
    rw [empty] at listed
    cases listed
  · obtain ⟨_, row, -, rfl, -⟩ := made
    exact List.cons_ne_nil _ _

end Part

theorem Call.twoChoices_leaves : ∃ start failure next,
    Matcher.build [(.text "a", .list [.text "x"])] .null .null = .ok start ∧ start.constraints = [] ∧
    outcome twoChoices.run ⟨start, {}⟩ = (.error failure, next) ∧ failure.IsUnknown ∧
    next.matcher.constraints ≠ [] ∧ next.namer.taken.keys ≠ [] := by
  obtain ⟨start, mapping, built, -⟩ := Matcher.build_single
  obtain ⟨table, sound, given, rfl⟩ := Matcher.build_eq_ok mapping built
  obtain ⟨roster, shape, keys⟩ := Table.shape_of_single rfl given
  have named : table.IsNamed := by
    intro name held
    rw [Table.names, shape] at held
    exact ⟨"a", List.mem_singleton.mp held⟩
  let desk : Desk := ⟨{ space := .whole table }, {}⟩
  let second : Part := .row .eq [(.text "a", .list [.text "nope"])] (.int 1) .null 2 1
  have made : twoChoices.parts? = some (.ok [.firstChoice, second]) := rfl
  obtain ⟨parts, made', ready⟩ := (fit_twoChoices sound desk.namer).parts sound (show desk.matcher.space = _ from rfl)
  cases made.symm.trans made'
  obtain ⟨part, listed, unknown⟩ := (misnames_twoChoices sound shape keys).part sound (fit_twoChoices sound desk.namer) made
  rcases run_decides sound named made ready with ⟨passes, -⟩ | ⟨-, failure, failed, cause⟩
  · exact absurd (passes part listed).knows unknown
  have ended : outcome twoChoices.run desk = (.error failure, (outcome twoChoices.run desk).2) := Prod.ext failed rfl
  refine ⟨_, failure, _, built, rfl, ended, cause, ?_⟩
  rcases left_of_fails made ended with ⟨⟨⟩, -⟩ | ⟨before, part, after, added, read, gives, stuck, grows⟩
  have split := Except.ok.inj read
  cases before with
  | nil =>
    obtain ⟨rfl, -⟩ := List.cons.inj split
    obtain ⟨-, same⟩ := Setup.gives_pure.mp gives
    rw [same] at stuck
    have decides := Part.run_decides sound named (show desk.matcher.space = _ from rfl) (ready.each _ List.mem_cons_self)
    rw [stuck] at decides
    rcases decides with ⟨-, _, ⟨⟩⟩ | ⟨not, -⟩
    exact absurd (Part.firstChoice_passes sound shape keys) not
  | cons first rest =>
    obtain ⟨rfl, -⟩ := List.cons.inj split
    rw [List.mapM_cons] at gives
    simp only [Setup.gives_bind, Setup.gives_pure] at gives
    obtain ⟨one, mid, made, others, last, -, rfl, -⟩ := gives
    have some := Part.firstChoice_adds sound shape keys (show desk.matcher.space = _ from rfl) made
    constructor
    · rw [grows.matcher]
      simp [Matcher.withRows, Matcher.withComposers, some]
    · rw [grows.taken]
      simp [some]

namespace Bench

/-- Whatever has been configured and asked before, by whomever the namer is shared with, a call of several parts that
fails leaves what the parts before the failing one have added: their rows behind the others, under names that are
taken from then on, and their composers. If these add nothing, the matcher and the names that are taken are as before. -/
theorem left_of_failure {start : Matcher} {actions : List Action} {bench next : Bench}
    (reached : Reached start actions bench) {call : Call} {found : Except Failure (List Part)}
    (made : call.parts? = some found) {failure : Failure}
    (failed : outcome (Action.configure call).run bench = (.error failure, next)) :
    (found = .error failure ∧ next.desk = bench.desk) ∨
    ∃ before part after added, found = .ok (before ++ part :: after) ∧
      (before.mapM Part.run).Gives bench.desk added next.desk ∧
      outcome part.run next.desk = (.error failure, next.desk) ∧
      next.desk.matcher = { bench.desk.matcher with
        constraints := bench.desk.matcher.constraints ++ added.flatMap (·.rows)
        composers := bench.desk.matcher.composers ++ added.flatMap (·.composers) } ∧
      next.desk.namer.taken.keys = bench.desk.namer.taken.keys ++ (added.flatMap (·.rows)).map (·.name) := by
  have refused := (Action.fails_iff reached.space.1).mp ⟨next.notes, failed⟩
  rcases Call.left_of_fails made refused with unread | ⟨before, part, after, added, read, gives, stuck, grows⟩
  · exact .inl unread
  · exact .inr ⟨before, part, after, added, read, gives, stuck, grows.matcher, grows.taken⟩

/-- What is left of the two choices is what the first one has added. -/
theorem left_of_choices : ∃ start bench next parts failure,
    Matcher.build [(.text "a", .list [.text "x"])] .null .null = .ok start ∧ Reached start [] bench ∧
    Call.twoChoices.parts? = some (.ok parts) ∧
    outcome (Action.configure Call.twoChoices).run bench = (.error failure, next) ∧
    ∃ before part after added, parts = before ++ part :: after ∧
      (before.mapM Part.run).Gives bench.desk added next.desk ∧
      next.desk.matcher.constraints = bench.desk.matcher.constraints ++ added.flatMap (·.rows) := by
  obtain ⟨start, failure, desk, built, -, failed, -⟩ := Call.twoChoices_leaves
  obtain ⟨notes, refused⟩ := (Action.fails_iff (coherent_fresh ⟨start, {}⟩)).mpr failed
  have made : Call.twoChoices.parts? = some (.ok _) := rfl
  rcases left_of_failure (.start {}) made refused with
    ⟨⟨⟩, -⟩ | ⟨before, part, after, added, split, gives, -, matcher, -⟩
  refine ⟨start, _, _, _, failure, built, .start {}, made, refused, before, part, after, added, ?_, gives, ?_⟩
  · exact Except.ok.inj split
  · rw [matcher]

/-- A call that fails has changed the rows of the matcher and the names that are taken. -/
theorem changed_by_failure : ∃ start bench next failure,
    Matcher.build [(.text "a", .list [.text "x"])] .null .null = .ok start ∧ Reached start [] bench ∧
    outcome (Action.configure Call.twoChoices).run bench = (.error failure, next) ∧
    failure.settle.kind = .unknownElement ∧
    next.desk.matcher.constraints ≠ bench.desk.matcher.constraints ∧
    next.desk.namer.taken.keys ≠ bench.desk.namer.taken.keys := by
  obtain ⟨start, failure, desk, built, none, failed, kind, rows, names⟩ := Call.twoChoices_leaves
  obtain ⟨notes, refused⟩ := (Action.fails_iff (coherent_fresh ⟨start, {}⟩)).mpr failed
  have untaken : ({} : Namer).taken.keys = [] := rfl
  exact ⟨start, _, _, failure, built, .start {}, refused, kind, by rwa [none], by rwa [untaken]⟩

end Bench

end Matchmaking
