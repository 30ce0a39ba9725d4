import Matchmaking.Proofs.Matcher.Closure
import Matchmaking.Proofs.Matcher.Expansion
import Matchmaking.Proofs.Matcher.Fitness
import Matchmaking.Proofs.Matcher.Totals
import Matchmaking.Proofs.Rule.Marker

/-! Calls that name a collection or an element that is unknown. What is looked up is the restrictions that a call
comes to: the choices of items from streams, and the pairs of bearers of a common marker. A call that is right
otherwise is refused for what is unknown if one of these names it. -/
namespace Matchmaking

open Stateful

namespace Table

variable {table : Table} {restriction part : Keyed Value}

theorem Reads.picks (sound : table.Sound) (reads : table.Reads (Matcher.spread restriction))
    (picks : Matcher.Picks restriction part) : table.Reads part where
  keys := by
    rw [picks.keys]
    exact reads.keys
  lists collection member v given := by
    rw [given_of_lasting picks.lasting] at given
    rcases picks.get? given with ⟨items, item, -, -, rfl⟩ | given
    · exact .inr (.inr ⟨[item], rfl⟩)
    · exact reads.lists collection member v (by rwa [given_of_lasting (Matcher.spread_lasting restriction)])
  elements collection member v given meant inside := by
    rw [given_of_lasting picks.lasting] at given
    rcases picks.get? given with ⟨items, item, whole, listed, rfl⟩ | given
    · rw [standsFor_list sound member, List.mem_singleton] at inside
      refine reads.elements collection member _ (by rwa [given_of_lasting (Matcher.spread_lasting restriction)]) meant ?_
      rw [standsFor_list sound member, inside]
      exact listed
    · rw [← given_of_lasting (Matcher.spread_lasting restriction)] at given
      exact reads.elements collection member v given meant inside

/-- Unless a stream is empty, all that a restriction gives is known if all its parts are. -/
theorem knows_spread (sound : table.Sound)
    (some : ∀ entry ∈ Matcher.streams restriction, entry.2.items?.getD [] ≠ [])
    (each : ∀ part, Matcher.Picks restriction part → table.Knows part) : table.Knows (Matcher.spread restriction) where
  names := by
    obtain ⟨part, picks, -⟩ := Matcher.exists_picks some .null
    rw [← picks.keys]
    exact (each part picks).names
  elements collection member v given meant inside := by
    obtain ⟨part, picks, chosen⟩ := Matcher.exists_picks some meant
    have known := (each part picks).elements collection member
    simp only [given_of_lasting picks.lasting] at known
    rw [given_of_lasting (Matcher.spread_lasting restriction)] at given
    rcases chosen collection.1 v given with given | ⟨items, rfl, choice⟩
    · exact known v given meant inside
    · rw [standsFor_list sound member] at inside
      refine known _ (choice inside) meant ?_
      rw [standsFor_list sound member]
      exact List.mem_singleton_self meant

end Table

namespace MarkerMap

variable {map : MarkerMap} {table : Table} {found : List Bearers} {pair : Bearers}

/-- A marker map whose collections and elements are each listed once and can be written. -/
structure Reads (map : MarkerMap) : Prop where
  mapping : map.IsMapping
  names : ∀ name ∈ map.keys, ∃ s, name.shown? = some s
  elements : ∀ entry ∈ map, ∀ e ∈ entry.2.keys, ∃ s, e.quoted? = some s

/-- A marker is on an element that the table does not have, and on an element of another collection. -/
def Misnames (map : MarkerMap) (table : Table) : Prop :=
  ∃ collection e other e', ∃ marker ∈ map.marks collection e, ∃ marker' ∈ map.marks other e',
    marker.same marker' = true ∧ collection.same other = false ∧
      ¬∃ known ∈ table.collections, known.1.same collection = true ∧ Table.holds known e = true

theorem Reads.restrictionOf (sound : table.Sound) (reads : map.Reads) (read : map.pairs = .ok found)
    (member : pair ∈ found) : table.Reads (Matcher.restrictionOf pair) := by
  obtain ⟨_, _, -, bearers, -⟩ := pairs_sound reads.mapping read member
  refine Table.reads_lists sound bearers (fun bearer bears => ?_) fun bearer bears e carried => ?_
  · exact reads.names _ (pairs_listed reads.mapping read member bears).1
  · obtain ⟨entry, listed, element⟩ := (pairs_listed reads.mapping read member bears).2 e carried
    exact reads.elements entry listed e element

theorem Misnames.restrictionOf (sound : table.Sound) (mapping : map.IsMapping) (read : map.pairs = .ok found)
    (misnames : map.Misnames table) : ∃ pair ∈ found, ¬table.Knows (Matcher.restrictionOf pair) := by
  obtain ⟨collection, e, other, e', marker, carried, marker', carried', same, apart, unknown⟩ := misnames
  obtain ⟨outer, inner, paired, sameOuter, ⟨element, held, sameElement⟩, -⟩ :=
    pairs_complete mapping read carried carried' same apart
  obtain ⟨pair, listed, bears⟩ : ∃ pair ∈ found, outer ∈ pair := by
    rcases paired with listed | listed
    · exact ⟨_, listed, List.mem_cons_self⟩
    · exact ⟨_, listed, List.mem_cons_of_mem _ List.mem_cons_self⟩
  refine ⟨pair, listed, fun knows => unknown ?_⟩
  obtain ⟨_, _, -, bearers, -⟩ := pairs_sound mapping read listed
  obtain ⟨known, inside, sameName, holds⟩ := (Table.knows_lists sound bearers).mp knows outer bears
  obtain ⟨own, enlisted, same⟩ := List.any_eq_true.mp (holds element held)
  have knownKey := sound.names.keys _ (List.mem_map_of_mem inside)
  have ownKey := (sound.elements _ inside).keys own enlisted
  exact ⟨known, inside, Value.same_trans knownKey sameName sameOuter,
    List.any_eq_true.mpr ⟨own, enlisted, Value.same_trans ownKey same sameElement⟩⟩

end MarkerMap

namespace Matcher

variable {restriction : Keyed Value} {name given other : Value} {parts i j : Nat}

/-- Names for several parts of one call are different. -/
theorem partName_apart (different : i ≠ j) (first : i < parts) (second : j < parts)
    (called : partName name parts i = .ok given) (called' : partName name parts j = .ok other)
    (own : other.truth = true) : given.truth = true ∧ other ≠ given := by
  unfold partName at called called'
  split at called
  · rename_i several
    rw [if_pos several] at called'
    obtain ⟨stem, shown, called⟩ := bind_eq_ok.mp called
    rw [shown] at called'
    cases called
    cases called'
    refine ⟨by simp [Value.truth, Value.length?], fun equal => different ?_⟩
    exact (Namer.numbered_injective (stem ++ "_") (Value.text.inj equal)).symm
  · rename_i one
    rw [if_neg one] at called'
    cases called
    cases called'
    rw [own, Bool.true_and, decide_eq_true_eq] at one
    omega

end Matcher

namespace Call

variable {table : Table} {desk : Desk} {call : Call}

/-- A call with which nothing is wrong unless what it names is unknown. Its weight is one, a number of tuples that is
asked for can be counted, and its name is left to the namer or can be given, to each part in its own form. -/
def IsFit (table : Table) (namer : Namer) : Call → Prop
  | .addComposer restriction weight => table.Reads restriction ∧ ∃ checked, Weight.check weight = .ok checked
  | .exclude restriction name => table.Reads restriction ∧ namer.Offers name
  | .excludeMarkers map => map.Reads ∧ ∃ pairs, map.pairs = .ok pairs
  | .includeMarkers map weight => map.Reads ∧ (∃ pairs, map.pairs = .ok pairs) ∧
      ∃ checked, Weight.check weight = .ok checked
  | .require _ restriction target name => restriction.IsMapping ∧ table.Reads (Matcher.spread restriction) ∧
      (target = .null → ∀ part ∈ Matcher.expand restriction, ∀ view,
        (View.whole table).subset part = .ok view → ∃ size, view.length = .ok size) ∧
      ∀ place < (Matcher.expand restriction).length, ∃ given,
        Matcher.partName name (Matcher.expand restriction).length place = .ok given ∧ namer.Offers given
  | .addRow _ | .setCount .. => False

/-- A call that names a collection or an element that the table does not have. Where choices are made from streams
each has to have something left, and a marker has to be on elements of two collections. -/
def Misnames (table : Table) : Call → Prop
  | .addComposer restriction _ | .exclude restriction _ => ¬table.Knows restriction
  | .excludeMarkers map | .includeMarkers map _ => map.Misnames table
  | .require _ restriction _ _ => (∀ entry ∈ Matcher.streams restriction, entry.2.items?.getD [] ≠ []) ∧
      ¬table.Knows (Matcher.spread restriction)
  | .addRow _ | .setCount .. => False

theorem IsFit.parts (sound : table.Sound) (space : desk.matcher.space = .whole table) (fit : call.IsFit table desk.namer) :
    ∃ parts, call.parts? = some (.ok parts) ∧ Part.AllFit table parts desk := by
  cases call with
  | addComposer restriction weight => exact ⟨_, rfl, .single space fit⟩
  | exclude restriction name =>
    obtain ⟨reads, offers⟩ := fit
    refine ⟨_, rfl, .single space ⟨reads, ?_, name, ?_, offers⟩⟩
    · rintro ⟨⟩
    · simp [Matcher.partName]
  | excludeMarkers map =>
    obtain ⟨reads, pairs, read⟩ := fit
    refine ⟨_, by rw [parts?, read]; rfl, .unnamed space (fun pair listed => ?_) fun _ => rfl⟩
    refine ⟨reads.restrictionOf sound read listed, ?_, .null, rfl, .inl rfl⟩
    rintro ⟨⟩
  | includeMarkers map weight =>
    obtain ⟨reads, ⟨pairs, read⟩, weighed⟩ := fit
    refine ⟨_, by rw [parts?, read]; rfl, .unnamed space (fun pair listed => ?_) fun _ => rfl⟩
    exact ⟨reads.restrictionOf sound read listed, weighed⟩
  | require op restriction target name =>
    obtain ⟨mapping, reads, counted, offered⟩ := fit
    refine ⟨_, rfl, space, fun part member => ?_, List.pairwise_map.mpr ?_⟩
    · obtain ⟨⟨choice, place⟩, listed, rfl⟩ := List.mem_map.mp member
      obtain ⟨inside, found⟩ := List.getElem?_eq_some_iff.mp (List.mem_zipIdx_iff_getElem?.mp listed)
      have chosen : choice ∈ Matcher.expand restriction := List.mem_of_getElem found
      exact ⟨reads.picks sound ((Matcher.mem_expand mapping).mp chosen), fun all => counted all choice chosen,
        offered place inside⟩
    · have places : (Matcher.expand restriction).zipIdx.Pairwise fun first second => first.2 ≠ second.2 := by
        rw [← List.pairwise_map, List.zipIdx_map_snd]
        exact List.nodup_range'
      refine places.imp_of_mem fun {first second} listed listed' different given other called called' own => ?_
      obtain ⟨inside, -⟩ := List.getElem?_eq_some_iff.mp (List.mem_zipIdx_iff_getElem?.mp listed)
      obtain ⟨inside', -⟩ := List.getElem?_eq_some_iff.mp (List.mem_zipIdx_iff_getElem?.mp listed')
      exact Matcher.partName_apart different inside inside' called called' own
  | addRow | setCount => cases fit

theorem Misnames.part (sound : table.Sound) (fit : call.IsFit table desk.namer) (misnames : call.Misnames table)
    {parts : List Part} (made : call.parts? = some (.ok parts)) : ∃ part ∈ parts, ¬table.Knows part.restriction := by
  cases call with
  | addComposer restriction weight =>
    cases made
    exact ⟨_, List.mem_cons_self, misnames⟩
  | exclude restriction name =>
    cases made
    exact ⟨_, List.mem_cons_self, misnames⟩
  | excludeMarkers map =>
    obtain ⟨reads, pairs, read⟩ := fit
    obtain ⟨pair, listed, unknown⟩ := MarkerMap.Misnames.restrictionOf sound reads.mapping read misnames
    rw [parts?, read] at made
    cases made
    exact ⟨_, List.mem_map_of_mem listed, unknown⟩
  | includeMarkers map weight =>
    obtain ⟨reads, ⟨pairs, read⟩, -⟩ := fit
    obtain ⟨pair, listed, unknown⟩ := MarkerMap.Misnames.restrictionOf sound reads.mapping read misnames
    rw [parts?, read] at made
    cases made
    exact ⟨_, List.mem_map_of_mem listed, unknown⟩
  | require op restriction target name =>
    cases made
    obtain ⟨some, unknown⟩ := misnames
    have choice : ∃ choice, Matcher.Picks restriction choice ∧ ¬table.Knows choice := by
      by_contra none
      push Not at none
      exact unknown (Table.knows_spread sound some none)
    obtain ⟨choice, picks, unknown⟩ := choice
    obtain ⟨place, found⟩ := List.mem_iff_getElem?.mp ((Matcher.mem_expand fit.1).mpr picks)
    have listed : (choice, place) ∈ (Matcher.expand restriction).zipIdx := List.mem_zipIdx_iff_getElem?.mpr found
    exact ⟨_, List.mem_map_of_mem listed, unknown⟩
  | addRow | setCount => cases misnames

/-- A fit call succeeds just if all its parts pass, and is refused for what is unknown otherwise. -/
theorem run_decides (sound : table.Sound) (named : table.IsNamed) {parts : List Part}
    (made : call.parts? = some (.ok parts)) (fit : Part.AllFit table parts desk) :
    Decides (outcome call.run desk).1 (∀ part ∈ parts, part.Passes table) Failure.IsUnknown := by
  obtain ⟨answer, runs⟩ := run_parts made
  rw [runs, liftM_ok, pure_bind]
  exact decides_bind_return (Part.mapM_decides sound named fit)

/-- Two elements from one stream and two from another, of which the last is none of the collection. -/
def fourChoices : Call :=
  .require .ge [(.text "a", .stream 0 [.text "x", .text "y"]), (.text "b", .stream 1 [.text "u", .text "nope"])]
    (.int 1) .null

theorem fit_fourChoices (sound : table.Sound) (namer : Namer) : fourChoices.IsFit table namer := by
  have mapping : Keyed.IsMapping [(Value.text "a", Value.stream 0 [.text "x", .text "y"]),
      (Value.text "b", .stream 1 [.text "u", .text "nope"])] := ⟨by decide, by decide⟩
  have lists : Keyed.IsMapping [(Value.text "a", [Value.text "x", .text "y"]),
      (Value.text "b", [.text "u", .text "nope"])] := ⟨by decide, by decide⟩
  have reads := Table.reads_lists sound lists (by simp [Value.shown?]) (by simp [Value.quoted?])
  refine ⟨mapping, reads, ?_, fun place _ => ⟨.null, rfl, .inl rfl⟩⟩
  rintro ⟨⟩

theorem misnames_fourChoices (sound : table.Sound) {a b : Roster}
    (shape : table.collections = [(.text "a", a), (.text "b", b)])
    (keys : b.keys = [.text "u", .text "v", .text "w"]) : fourChoices.Misnames table := by
  have lists : Keyed.IsMapping [(Value.text "a", [Value.text "x", .text "y"]),
      (Value.text "b", [.text "u", .text "nope"])] := ⟨by decide, by decide⟩
  refine ⟨by decide, fun knows => ?_⟩
  obtain ⟨collection, inside, same, holds⟩ :=
    (Table.knows_lists sound lists).mp knows _ (List.mem_cons_of_mem _ List.mem_cons_self)
  rw [shape] at inside
  rcases List.mem_pair.mp inside with rfl | rfl
  · exact absurd same Bool.false_ne_true
  · have held := holds (.text "nope") (by simp)
    rw [Table.holds, keys] at held
    exact absurd held (by decide)

end Call

namespace Bench

/-- Whatever has been configured and asked before, a fit call that names something unknown is refused for it. -/
theorem unknown_reported {collections : Keyed Value} {backend timeLimit : Value} {start : Matcher}
    {actions : List Action} {bench : Bench} (mapping : collections.IsMapping)
    (texts : ∀ name ∈ collections.keys, ∃ s, name = .text s)
    (built : Matcher.build collections backend timeLimit = .ok start) (reached : Reached start actions bench)
    {call : Call} (fit : call.IsFit start.space.table bench.desk.namer) (misnames : call.Misnames start.space.table) :
    ∃ failure next, outcome (Action.configure call).run bench = (.error failure, next) ∧
      failure.settle.kind = .unknownElement := by
  obtain ⟨table, sound, given, rfl⟩ := Matcher.build_eq_ok mapping built
  obtain ⟨coherent, space⟩ := reached.space
  have named : table.IsNamed := by
    intro name held
    rw [Table.names, ← Keyed.keys_eq_of_forall₂ given fun _ _ step => step.1.symm, Keyed.keys_inTurn] at held
    exact texts name held
  obtain ⟨parts, made, ready⟩ := fit.parts sound space
  obtain ⟨part, listed, unknown⟩ := misnames.part sound fit made
  rcases Call.run_decides sound named made ready with ⟨passes, -⟩ | ⟨-, failure, failed, cause⟩
  · exact absurd (passes part listed).knows unknown
  · obtain ⟨notes, refused⟩ := (Action.fails_iff coherent).mpr (Prod.ext failed rfl)
    exact ⟨failure, _, refused, cause⟩

/-- Of the choices from two streams, which are four, the first is made before an element of the second stream turns out
to be none of its collection. -/
theorem unknown_reported_of_choices : ∃ start bench failure next,
    Matcher.build Matcher.grid .null .null = .ok start ∧
    Reached start (Matcher.gridCalls.map .configure) bench ∧
    Call.fourChoices.IsFit start.space.table bench.desk.namer ∧ Call.fourChoices.Misnames start.space.table ∧
    outcome (Action.configure Call.fourChoices).run bench = (.error failure, next) ∧
    failure.settle.kind = .unknownElement := by
  obtain ⟨table, bench, built, sound, -, reached, -⟩ := exists_grid
  obtain ⟨_, a, b, built', -, shape, -, keys⟩ := Matcher.build_grid
  cases built.symm.trans built'
  have fit := Call.fit_fourChoices sound bench.desk.namer
  have misnames := Call.misnames_fourChoices sound shape keys
  have texts : ∀ name ∈ Keyed.keys Matcher.grid, ∃ s, name = .text s := by
    intro name member
    rcases List.mem_pair.mp member with rfl | rfl <;> exact ⟨_, rfl⟩
  obtain ⟨failure, next, refused, kind⟩ := unknown_reported Matcher.grid_isMapping texts built reached fit misnames
  exact ⟨_, bench, failure, next, built, reached, fit, misnames, refused, kind⟩

/-- Nothing is looked up of a collection that is unknown if its markers are on no elements of another one. -/
theorem unknown_overlooked : ∃ start bench,
    Matcher.build [(.text "a", .list [.text "x"])] .null .null = .ok start ∧ Reached start [] bench ∧
    (∀ collection ∈ start.space.table.collections, collection.1.same (.text "nope") = false) ∧
    outcome (Action.configure (.excludeMarkers [(.text "nope", [(.text "q", .text "m")])])).run bench =
      (.ok (.answer (.rows [])), bench) := by
  obtain ⟨start, mapping, built, -⟩ := Matcher.build_single
  obtain ⟨table, sound, given, rfl⟩ := Matcher.build_eq_ok mapping built
  obtain ⟨roster, shape, keys⟩ := Table.shape_of_single rfl given
  let marked : MarkerMap := [(.text "nope", [(.text "q", .text "m")])]
  have single : marked.IsMapping := by
    refine ⟨⟨by decide, by decide⟩, fun entry member => ?_⟩
    rw [List.mem_singleton.mp member]
    exact ⟨by decide, by decide⟩
  obtain ⟨pairs, read⟩ : ∃ pairs, marked.pairs = .ok pairs := ⟨_, rfl⟩
  obtain rfl := MarkerMap.pairs_of_single single read
  let start : Matcher := { space := .whole table }
  refine ⟨start, ⟨⟨start, {}⟩, {}⟩, built, .start {}, fun collection inside => ?_, ?_⟩
  · have inside : collection ∈ table.collections := inside
    rw [shape, List.mem_singleton] at inside
    have apart : Value.same (.text "a") (.text "nope") = false := by decide
    rwa [inside]
  · change outcome (do return Reply.answer (← atDesk (Call.excludeMarkers marked).run)) _ = _
    simp only [Call.run, Matcher.excludeMarkers, read]
    rfl

end Bench

end Matchmaking
