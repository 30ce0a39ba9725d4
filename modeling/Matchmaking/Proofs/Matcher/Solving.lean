import Matchmaking.Matcher.Solve
import Matchmaking.Proofs.Matcher.Totals
import Matchmaking.Proofs.Solver.Shell

/-! Solving from end to end with an executable that prints a listing. What comes back are the tuples
of the variables that the listing shows as chosen, in the order of the program's variables. -/
namespace Matchmaking.Desk

open Stateful

variable {ids found : List String} {chosen : String → Bool}

theorem get?_places {id : String} (member : id ∈ ids) (start : Nat) :
    Keyed.get? ((ids.zipIdx start).map fun (id, place) => (Value.text id, place)) (.text id) =
      some (start + ids.idxOf id) := by
  induction ids generalizing start with
  | nil => cases member
  | cons first rest ih =>
    rw [List.zipIdx_cons, List.map_cons, Keyed.get?_cons]
    by_cases here : first = id
    · subst here
      rw [if_pos (Value.same_refl rfl), List.idxOf_cons_self, Nat.add_zero]
    · have other : (Value.text first).same (.text id) = false := by
        simpa [Value.same, Value.sameAtom, Value.number?, Value.text?] using here
      rw [other, if_neg Bool.false_ne_true, ih ((List.mem_cons.mp member).resolve_left (Ne.symm here)),
        List.idxOf_cons_ne _ here, Nat.add_assoc, Nat.add_comm 1]

/-- Identifiers that are put in the order of others are those of them that were selected. -/
theorem inOrder_perm (nodup : ids.Nodup) (same : found.Perm (ids.filter chosen)) :
    inOrder ids (found.map .text) = (ids.filter chosen).map .text := by
  let placed := fun id => (ids.idxOf id, Value.text id)
  have known : ∀ id ∈ found, id ∈ ids := fun id member => List.mem_of_mem_filter (same.mem_iff.mp member)
  have places : (found.map Value.text).map (fun id => (((Lookup.of (ids.zipIdx.map fun (id, place) =>
      (Value.text id, place))).get? id).getD ids.length, id)) = found.map placed := by
    rw [List.map_map]
    refine List.map_congr_left fun id member => ?_
    rw [Function.comp_apply, Lookup.get?_of, get?_places (known id member), Option.getD_some, Nat.zero_add]
  have sorted : (found.map placed).mergeSort (fun a b => a.1 ≤ b.1) = (ids.filter chosen).map placed := by
    refine @List.Perm.eq_of_pairwise _ (fun a b => decide (a.1 ≤ b.1) = true) _ _ ?_ ?_ ?_ ?_
    · intro a b left right first second
      obtain ⟨id, member, rfl⟩ := List.mem_map.mp (List.mem_mergeSort.mp left)
      obtain ⟨id', member', rfl⟩ := List.mem_map.mp right
      have equal : ids.idxOf id = ids.idxOf id' := by
        simp only [placed, decide_eq_true_eq] at first second
        omega
      rw [(List.idxOf_inj (known id member)).mp equal]
    · refine List.pairwise_mergeSort (fun a b c first second => ?_) (fun a b => ?_) _
      · simp only [decide_eq_true_eq] at first second ⊢
        omega
      · simp only [Bool.or_eq_true, decide_eq_true_eq]
        omega
    · have ascending : ids.Pairwise fun a b => ids.idxOf a ≤ ids.idxOf b := by
        refine List.pairwise_iff_getElem.mpr fun i j left right less => ?_
        rw [nodup.idxOf_getElem, nodup.idxOf_getElem]
        exact Nat.le_of_lt less
      exact List.pairwise_map.mpr ((ascending.filter _).imp fun le => decide_eq_true le)
    · exact (List.mergeSort_perm _ _).trans (same.map placed)
  rw [inOrder, places, sorted, List.map_map]
  rfl

theorem find_preferred (world : World) : Registry.standard.find Registry.preferred world = .ok .shell := by
  have small : Text.lowercase "lp_solve".toList = "lp_solve".toList := by decide +kernel
  have lowered : Registry.lowered Registry.preferred = .ok Registry.preferred := by
    show (Except.ok (Value.text (String.ofList (Text.lowercase "lp_solve".toList))) : Except Failure Value) = _
    rw [small, String.ofList_toList]
    rfl
  have chosen : Registry.standard.chosen Registry.preferred world = .ok Registry.preferred := rfl
  have filed : Registry.standard.get? Registry.preferred = some .shell := by
    rw [Registry.standard, Keyed.get?_cons, if_pos (Value.same_refl rfl)]
  simp only [Registry.find, chosen, ok_bind, lowered, filed]
  rfl

variable {table : Table} {m : Matcher} {namer : Namer} {world : World} {p : Problem}

/-- What is made of an outcome: what it selects is put in order and decoded. -/
def delivered (m : Matcher) (outcome : Outcome) : Run Matches := do
  let selected ← outcome.solution
  let decoded ← ((inOrder m.active selected).mapM m.space.decode : Except Failure (List (List Value)))
  return ⟨decoded, m.space.names⟩

theorem solveProgram_eq (timeLimit : m.timeLimit = .null) (some : m.active ≠ []) (p : Problem) (namer : Namer)
    (world : World) : solveProgram ⟨m, namer⟩ m.active p Registry.standard Registry.preferred .null world =
      Shell.solve p .null .null world >>= delivered m := by
  have present : m.active.isEmpty = false := by simpa using some
  have asked : (if Registry.preferred.truth then Registry.preferred else m.backend) = Registry.preferred := rfl
  have backend : Registry.standard.solve p Registry.preferred .null world = Shell.solve p .null .null world := by
    rw [Registry.solve, find_preferred]
    rfl
  simp only [solveProgram, present, Bool.false_eq_true, if_false, asked, timeLimit, backend]
  rfl

theorem delivered_eq {outcome : Outcome} {tuples : List (List Value)}
    (solution : outcome.solution = .ok (found.map .text)) (nodup : m.active.Nodup) (same : found.Perm (m.active.filter chosen))
    (decoded : List.Forall₂ m.Decodes (m.active.filter chosen) tuples) :
    delivered m outcome = pure ⟨tuples, m.space.names⟩ := by
  have read : ((m.active.filter chosen).map Value.text).mapM m.space.decode = .ok tuples :=
    mapM_eq_ok.mpr (List.forall₂_map_left_iff.mpr (decoded.imp fun _ _ both => both.1))
  rw [delivered, solution, liftM_ok, pure_bind, inOrder_perm nodup same, read]
  rfl

theorem solveProgram_answers {outcome : Outcome} {tuples : List (List Value)} (timeLimit : m.timeLimit = .null)
    (some : m.active ≠ []) (answers : Answers (Shell.solve p .null .null world) outcome)
    (solution : outcome.solution = .ok (found.map .text)) (nodup : m.active.Nodup)
    (same : found.Perm (m.active.filter chosen))
    (decoded : List.Forall₂ m.Decodes (m.active.filter chosen) tuples) :
    Answers (solveProgram ⟨m, namer⟩ m.active p Registry.standard Registry.preferred .null world)
      ⟨tuples, m.space.names⟩ := by
  rw [solveProgram_eq timeLimit some]
  refine .bind answers ?_
  rw [delivered_eq solution nodup same decoded]
  exact .pure _

theorem solve_fails {failure : Failure} (timeLimit : m.timeLimit = .null) (some : m.active ≠ [])
    (composed : m.compose namer.taken = .ok p) (fails : Fails (Shell.solve p .null .null world) failure) :
    Fails (solve ⟨m, namer⟩ Registry.standard Registry.preferred .null world) failure := by
  refine .bind_later (.lift composed) ?_
  rw [solveProgram_eq timeLimit some]
  exact .bind fails

theorem solve_ends {parts : Listing.Parts} (sound : table.Sound)
    (small : ∀ entry ∈ table.collections, entry.2.size ≤ 10 ^ Numeral.digitLimit) (whole : m.IsWhole table)
    (some : m.active ≠ []) (composed : m.compose namer.taken = .ok p) (plain : p.IsPlain m.active)
    (available : Shell.isAvailable .null world = .ok true) (prints : world.shell.Prints parts)
    (shows : parts.Shows m.active chosen p.rowNames) :
    ∃ tuples, List.Forall₂ m.Decodes (m.active.filter chosen) tuples ∧
      (p.Fits → Answers (solve ⟨m, namer⟩ Registry.standard Registry.preferred .null world) ⟨tuples, m.space.names⟩) ∧
      (¬p.Fits → Fails (solve ⟨m, namer⟩ Registry.standard Registry.preferred .null world) .numeralTooLong) := by
  have each : ∀ id ∈ m.active, ∃ tuple, m.Decodes id tuple := fun id =>
    Matcher.decodes_active sound small whole.stands
  have form : ∀ id ∈ m.active, Identifier.hasForm id = true := by
    intro id member
    obtain ⟨tuple, decodes⟩ := each id member
    exact decodes.hasForm sound whole.stands
  have nodup := whole.stands.nodup_active sound
  obtain ⟨tuples, decoded⟩ := exists_forall₂ fun id member => each id (List.mem_of_mem_filter member)
  refine ⟨tuples, decoded, ?_⟩
  rcases Shell.solve_ends plain nodup form available prints shows with
    ⟨fits, outcome, found, answers, solution, same⟩ | ⟨large, fails⟩
  · exact ⟨fun _ => .bind (.lift composed)
        (solveProgram_answers whole.timeLimit some answers solution nodup same decoded),
      fun large => absurd fits large⟩
  · exact ⟨fun fits => absurd fits large, fun _ => solve_fails whole.timeLimit some composed fails⟩

/-- The tuple of a collection with one element, composed twice with the same weight. -/
theorem composed_twice (w : Int) : ∃ start m,
    Matcher.build [(.text "a", .list [.text "x"])] .null .null = .ok start ∧
    Matcher.Reached start [.addComposer [] (.int w), .addComposer [] (.int w)] m ∧ m.timeLimit = .null ∧
    m.active = ["v0"] ∧ ∀ taken, m.compose taken = .ok ⟨.list [.text "v0"], [(.text "v0", .int (w + w))], []⟩ := by
  obtain ⟨space, built, -, weighs⟩ := Matcher.composer_of_single
  obtain ⟨composer, single, weight, step⟩ := weighs (.int w) rfl
  obtain ⟨_, mid, gives, grown⟩ := step ⟨{ space }, {}⟩ rfl
  obtain ⟨_, last, gives', grown'⟩ := step ⟨mid.matcher, {}⟩ (by rw [grown]; rfl)
  rw [grown] at grown'
  have reached := (Matcher.Reached.start.of_gives rfl gives).of_gives rfl gives'
  have taken : Weight.take 1 composer.weight = .ok [.int w] := by rw [weight]; rfl
  have sum (z : Int) : (Value.int z).add (.int w) = .ok (.int (z + w)) := Value.add_whole rfl rfl
  have composed := Matcher.compose_twice grown' single single taken taken (sum 0)
  rw [Int.zero_add, sum w] at composed
  exact ⟨_, last.matcher, built, reached, by rw [grown']; rfl, (composed .empty).1, fun names => (composed names).2⟩

/-- The listing of a program with one variable, which is chosen, and without rows. -/
def singleListing : Listing.Parts := ⟨[[]], ["v0 1".toList], []⟩

def singleWorld : World where
  installed := ["lp_solve"]
  shell := { output := "\nActual values of the variables:\nv0 1\nActual values of the constraints:\n" }

theorem singleWorld_prints : singleWorld.shell.Prints singleListing := ⟨rfl, .inl rfl, rfl⟩

theorem singleListing_shows : singleListing.Shows ["v0"] (fun _ => true) [] where
  single := by
    intro line member
    rcases List.mem_pair.mp member with rfl | rfl
    · exact Text.isLine_iff.mpr rfl
    · exact Text.isLine_iff.mpr (by decide +kernel)
  silent := by
    intro line member
    rw [List.mem_singleton.mp member]
    exact ⟨by decide, by decide⟩
  apart := by
    intro line member
    rw [List.mem_singleton.mp member]
    simp [Text.fields, Text.fields.go]
  values := ⟨["v0"], .refl _, .cons ⟨['1'], by decide +kernel, by decide +kernel⟩ .nil⟩
  rows := ⟨[], .refl _, .nil⟩

/-- Nine at the greatest place that can be written is written, and twice as much is not. -/
theorem fits_nine {k : Nat} (limit : Numeral.digitLimit = k + 1) :
    Numeral.Fits (9 * 10 ^ k) ∧ ¬Numeral.Fits (9 * 10 ^ k + 9 * 10 ^ k) := by
  have positive : 0 < 10 ^ k := Nat.pow_pos (by omega)
  have size : (9 * 10 ^ k : Int).natAbs = 9 * 10 ^ k := by rw [Int.natAbs_mul, Int.natAbs_pow]; rfl
  rw [Numeral.fits_iff, Numeral.fits_iff, limit, Nat.pow_succ, size]
  omega

theorem small_of_given {collections : Keyed Value} (given : List.Forall₂ (fun given entry => entry.1 = given.1 ∧
      given.2.items = .ok entry.2.keys) (collections.inTurn []) table.collections)
    (small : ∀ given ∈ collections, ∀ items, given.2.items = .ok items → items.length < 10 ^ Numeral.digitLimit) :
    ∀ entry ∈ table.collections, entry.2.size ≤ 10 ^ Numeral.digitLimit := by
  intro entry member
  obtain ⟨source, inside, -, read⟩ := exists_of_mem_right given member
  rw [← Roster.length_keys]
  obtain ⟨v, listed, rfl | empty⟩ := Keyed.mem_inTurn inside
  · exact Nat.le_of_lt (small _ listed _ read)
  · rw [← Except.ok.inj (empty.symm.trans read)]
    exact Nat.zero_le _

/-- Whatever calls have led to a matcher with variables, a program is composed from it, and every
listing that shows a choice of its variables is turned into the tuples that they stand for. Only a
weight or a target of the program with too many digits prevents it, and then nothing is solved. -/
theorem solved_of_listing {collections : Keyed Value} {backend : Value} {start m : Matcher} {calls : List Call}
    {world : World} {parts : Listing.Parts} (mapping : collections.IsMapping)
    (built : Matcher.build collections backend .null = .ok start)
    (small : ∀ given ∈ collections, ∀ items, given.2.items = .ok items → items.length < 10 ^ Numeral.digitLimit)
    (reached : Matcher.Reached start calls m) (whole : ∀ call ∈ calls, call.IsWhole) (some : m.active ≠ [])
    (namer : Namer) (available : Shell.isAvailable .null world = .ok true) (prints : world.shell.Prints parts) :
    ∃ p, problem ⟨m, namer⟩ = .ok p ∧ p.unknowns = .list (m.active.map .text) ∧
      ∀ chosen, parts.Shows m.active chosen p.rowNames → ∃ tuples,
        List.Forall₂ m.Decodes (m.active.filter chosen) tuples ∧
        (p.Fits → Answers (solve ⟨m, namer⟩ Registry.standard Registry.preferred .null world)
          ⟨tuples, m.space.names⟩) ∧
        (¬p.Fits → Fails (solve ⟨m, namer⟩ Registry.standard Registry.preferred .null world) .numeralTooLong) := by
  obtain ⟨table, sound, given, fresh⟩ := Matcher.whole_of_build mapping built
  have kept := reached.whole fresh whole
  obtain ⟨p, composed, plain⟩ := kept.compose_plain sound namer.taken
  exact ⟨p, composed, plain.unknowns, fun chosen shows =>
    solve_ends sound (small_of_given given small) kept some composed plain available prints shows⟩

/-- A listing of the grid program, with lines in an order of their own, in which two variables are chosen. -/
def gridListing : Listing.Parts where
  preamble := [[]]
  values := ["v1x0 1".toList, "v0x0 0".toList, "v0x1 1".toList, "v0x2 0".toList]
  rows := ["count0 1".toList, "constraint0 0".toList, "count1 1".toList]

def gridWorld : World where
  installed := ["lp_solve"]
  shell := { output := String.ofList gridListing.output }

theorem gridWorld_prints : gridWorld.shell.Prints gridListing := ⟨rfl, .inl rfl, rfl⟩

theorem gridListing_shows : gridListing.Shows ["v0x0", "v0x1", "v0x2", "v1x0"] (fun id => id == "v0x1" || id == "v1x0")
    Matcher.gridProgram.rowNames where
  single := by
    intro line member
    refine Text.isLine_iff.mpr ?_
    revert line
    decide +kernel
  silent := by
    intro line member
    rw [List.mem_singleton.mp member]
    exact ⟨by decide, by decide⟩
  apart := by
    intro line member
    rw [List.mem_singleton.mp member]
    simp [Text.fields, Text.fields.go]
  values := by
    refine ⟨["v1x0", "v0x0", "v0x1", "v0x2"], by decide, ?_⟩
    exact .cons ⟨['1'], by decide +kernel, by decide +kernel⟩ (.cons ⟨['0'], by decide +kernel, by decide +kernel⟩
      (.cons ⟨['1'], by decide +kernel, by decide +kernel⟩ (.cons ⟨['0'], by decide +kernel, by decide +kernel⟩ .nil)))
  rows := by
    refine ⟨["count0", "constraint0", "count1"], by decide, ?_⟩
    exact .cons ⟨['1'], by decide +kernel⟩ (.cons ⟨['0'], by decide +kernel⟩ (.cons ⟨['1'], by decide +kernel⟩ .nil))

theorem gridProgram_solved {m : Matcher} (made : m.IsGrid table) (namer : Namer) :
    Answers (solveProgram ⟨m, namer⟩ m.active Matcher.gridProgram Registry.standard Registry.preferred .null gridWorld)
      ⟨[[.text "x", .text "v"], [.text "y", .text "u"]], [.text "a", .text "b"]⟩ := by
  have nodup : m.active.Nodup := by
    rw [made.active]
    decide
  have filled : m.active ≠ [] := by
    rw [made.active]
    exact List.cons_ne_nil _ _
  have decoded : List.Forall₂ m.Decodes (m.active.filter fun id => id == "v0x1" || id == "v1x0")
      [[.text "x", .text "v"], [.text "y", .text "u"]] := by
    rw [made.active]
    exact .cons made.decodes.1 (.cons made.decodes.2 .nil)
  have plain := Matcher.gridProgram_isPlain
  have shows := gridListing_shows
  rw [← made.active] at plain shows
  have form : ∀ id ∈ m.active, Identifier.hasForm id = true := by
    rw [made.active]
    decide +kernel
  rcases Shell.solve_ends plain nodup form rfl gridWorld_prints shows with
    ⟨-, outcome, found, answers, solution, same⟩ | ⟨large, -⟩
  · rw [← made.names]
    exact solveProgram_answers made.timeLimit filled answers solution nodup same decoded
  · exact absurd Matcher.gridProgram_fits large

/-- Two tuples of a space of six are found. -/
theorem solved_of_grid : ∃ start m, Matcher.build Matcher.grid .null .null = .ok start ∧
    Matcher.Reached start Matcher.gridCalls m ∧
    Answers (solve ⟨m, {}⟩ Registry.standard Registry.preferred .null gridWorld)
      ⟨[[.text "x", .text "v"], [.text "y", .text "u"]], [.text "a", .text "b"]⟩ := by
  obtain ⟨table, desk, built, sound, made, reached, -⟩ := Matcher.exists_grid
  have filled : desk.matcher.active ≠ [] := by rw [made.active]; exact List.cons_ne_nil _ _
  obtain ⟨p, composed, -, solved⟩ := solved_of_listing Matcher.grid_isMapping built Matcher.grid_small reached
    Matcher.gridCalls_whole filled {} rfl gridWorld_prints
  cases (made.compose sound fun _ => Namer.not_isTaken_fresh _).symm.trans composed
  rw [made.active] at solved
  obtain ⟨tuples, decoded, answers, -⟩ := solved _ gridListing_shows
  have chosen : ["v0x0", "v0x1", "v0x2", "v1x0"].filter (fun id => id == "v0x1" || id == "v1x0") = ["v0x1", "v1x0"] := rfl
  rw [chosen] at decoded
  have same : tuples = [[.text "x", .text "v"], [.text "y", .text "u"]] := by
    obtain ⟨_, _, first, others, rfl⟩ := List.forall₂_cons_left_iff.mp decoded
    obtain ⟨_, _, second, rest, rfl⟩ := List.forall₂_cons_left_iff.mp others
    cases rest
    cases made.decodes.1.1.symm.trans first.1
    cases made.decodes.2.1.symm.trans second.1
    rfl
  rw [same, made.names] at answers
  exact ⟨_, desk.matcher, built, reached, answers Matcher.gridProgram_fits⟩

/-- Two weights that can be written may add up to one that cannot, and then nothing is solved. -/
theorem unsolved_of_large_sum : ∃ start m,
    Matcher.build [(.text "a", .list [.text "x"])] .null .null = .ok start ∧
    Matcher.Reached start [.addComposer [] (.int (9 * 10 ^ 4299)), .addComposer [] (.int (9 * 10 ^ 4299))] m ∧
    Numeral.Fits (9 * 10 ^ 4299) ∧ m.active = ["v0"] ∧ Shell.isAvailable .null singleWorld = .ok true ∧
    singleWorld.shell.Prints singleListing ∧
    (∃ p, problem ⟨m, {}⟩ = .ok p ∧ singleListing.Shows m.active (fun _ => true) p.rowNames) ∧
    Fails (solve ⟨m, {}⟩ Registry.standard Registry.preferred .null singleWorld) .numeralTooLong := by
  obtain ⟨fits, large⟩ := fits_nine (k := 4299) rfl
  obtain ⟨start, m, built, reached, -, active, composed⟩ := composed_twice (9 * 10 ^ 4299)
  have mapping : Keyed.IsMapping [(Value.text "a", Value.list [.text "x"])] := ⟨by decide, by decide⟩
  obtain ⟨table, sound, given, fresh⟩ := Matcher.whole_of_build mapping built
  obtain ⟨roster, shape, keys⟩ := Table.shape_of_single rfl given
  have small : ∀ entry ∈ table.collections, entry.2.size ≤ 10 ^ Numeral.digitLimit := by
    intro entry member
    rw [shape] at member
    rw [List.mem_singleton.mp member, ← Roster.length_keys, keys]
    exact Nat.one_le_pow _ _ (by omega)
  have weighed : (Call.addComposer [] (.int (9 * 10 ^ 4299))).IsWhole := by
    rintro - row ⟨⟩ v member
    exact ⟨9 * 10 ^ 4299, by rw [List.mem_singleton.mp member]; rfl⟩
  have whole := reached.whole fresh fun call member => by
    rcases List.mem_pair.mp member with rfl | rfl <;> exact weighed
  have some : m.active ≠ [] := by rw [active]; exact List.cons_ne_nil _ _
  have shows : singleListing.Shows m.active (fun _ => true) [] := by rw [active]; exact singleListing_shows
  obtain ⟨p, made, plain⟩ := whole.compose_plain sound ({} : Namer).taken
  cases (composed _).symm.trans made
  obtain ⟨tuples, -, -, fails⟩ := solve_ends sound small whole some made plain rfl singleWorld_prints shows
  refine ⟨start, m, built, reached, fits, active, rfl, singleWorld_prints, ⟨_, made, shows⟩, fails fun both => ?_⟩
  exact large (both.1 _ List.mem_cons_self _ rfl)

end Matchmaking.Desk
