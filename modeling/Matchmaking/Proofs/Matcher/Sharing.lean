import Matchmaking.Proofs.Constraint.Handing
import Matchmaking.Proofs.Matcher.Notes
import Matchmaking.Proofs.Matcher.Upkeep

/-! Names of rows among matchers that may share their namers. Each row of a matcher stands under a name
that its namer has given out to no other row, whatever becomes of the calls, and count rows are named
apart from all names that are taken. So no two rows of a program have one name. -/
namespace Matchmaking

open Stateful

/-- What can be said of the names of rows numbered under a stem: they are not empty and, if the stem is
the usual one, they are words that are neither identifiers nor keywords. -/
def Name.Suits (stem name : String) : Prop := name ≠ "" ∧ (stem = Matcher.usualStem → isUsable name = true)

theorem Name.suits_of_isUsable {name : String} (usable : isUsable name = true) (stem : String) : Suits stem name :=
  ⟨ne_empty_of_isUsable usable, fun _ => usable⟩

theorem Name.suits_numbered (stem : String) (number : Nat) : Suits stem (Namer.numbered stem number) := by
  refine ⟨Namer.numbered_ne_empty stem number, ?_⟩
  rintro rfl
  have plain : Namer.isPlainStem Matcher.usualStem = true := by decide +kernel
  exact (Namer.isUsable_numbered _ number).trans plain

/-- Rows under different names, each of which is taken and good. -/
structure Namer.Names (namer : Namer) (good : String → Prop) (rows : List Constraint) : Prop where
  distinct : (rows.map (·.name)).Nodup
  each : ∀ c ∈ rows, ∃ s, c.name = .text s ∧ namer.isTaken s = true ∧ good s

namespace Namer.Names

variable {namer next : Namer} {good : String → Prop} {rows others : List Constraint} {s : String}

theorem nil : namer.Names good [] := ⟨.nil, by simp⟩

theorem perm (names : namer.Names good rows) (same : rows.Perm others) : namer.Names good others where
  distinct := (same.map _).nodup_iff.mp names.distinct
  each c member := names.each c (same.mem_iff.mpr member)

theorem sublist (names : namer.Names good rows) (part : others.Sublist rows) : namer.Names good others where
  distinct := names.distinct.sublist (part.map _)
  each c member := names.each c (part.subset member)

theorem gives (names : namer.Names good rows) (gives : namer.Gives s next) : next.Names good rows where
  distinct := names.distinct
  each c member := by
    obtain ⟨other, named, taken, suits⟩ := names.each c member
    exact ⟨other, named, gives.isTaken_iff.mpr (.inl taken), suits⟩

theorem append_single (names : namer.Names good rows) (gives : namer.Gives s next) (suits : good s) {row : Constraint}
    (named : row.name = .text s) : next.Names good (rows ++ [row]) where
  distinct := by
    rw [List.map_append, List.map_singleton, named]
    refine names.distinct.append (List.nodup_singleton _) ?_
    intro name held single
    rw [List.mem_singleton.mp single] at held
    obtain ⟨c, member, same⟩ := List.mem_map.mp held
    obtain ⟨other, named', taken, -⟩ := names.each c member
    rw [Value.text.inj (named'.symm.trans same), gives.free] at taken
    cases taken
  each := by
    refine List.forall_mem_append.mpr ⟨(names.gives gives).each, fun c member => ?_⟩
    rw [List.mem_singleton.mp member]
    exact ⟨s, named, gives.isTaken_iff.mpr (.inr rfl), suits⟩

theorem nameRows (names : namer.Names good rows) (suits : ∀ number, good (numbered namer.stem number))
    (more : List Constraint) : ∃ next : Namer, next.Names good (rows ++ (Matcher.nameRows namer more).1) := by
  induction more generalizing namer rows with
  | nil => exact ⟨namer, by simpa [Matcher.nameRows] using names⟩
  | cons c rest ih =>
    let row : Constraint := { c with name := .text namer.hand.1 }
    have joined := names.append_single namer.hand_gives (suits _) (show row.name = _ from rfl)
    obtain ⟨next, all⟩ := ih joined suits
    exact ⟨next, by simpa [Matcher.nameRows] using all⟩

end Namer.Names

namespace Matcher

/-- Whichever way a row is named, its name was free and suits the stem of the namer. -/
theorem nameRow_gives {namer next : Namer} {c row : Constraint} (naming : nameRow namer c = .ok (row, next)) :
    ∃ s, row.name = .text s ∧ namer.Gives s next ∧ Name.Suits namer.stem s := by
  unfold nameRow at naming
  split at naming
  · obtain ⟨⟨s, later⟩, claims, naming⟩ := bind_eq_ok.mp naming
    cases naming
    obtain ⟨named, checked, gives⟩ := Namer.claim_gives claims
    exact ⟨s, named, gives, Name.suits_of_isUsable (Name.isUsable_of_check checked) _⟩
  · cases naming
    exact ⟨_, rfl, namer.hand_gives, Name.suits_numbered _ _⟩

theorem keeping_names {rows : List Constraint} {kept : List (Option Constraint)} {left : Constraint → List Value}
    (related : List.Forall₂ (fun c row => c.keeping (left c) = .ok row) rows kept) :
    ((kept.filterMap id).map (·.name)).Sublist (rows.map (·.name)) := by
  induction related with
  | nil => exact .slnil
  | @cons c row rows kept first _ ih =>
    cases row with
    | none => exact ih.cons _
    | some row =>
      obtain ⟨-, target, rfl, -⟩ := Constraint.keeping_eq_some first
      simp only [List.filterMap_cons, id_eq, List.map_cons]
      exact ih.cons_cons _

theorem compose_names {m : Matcher} {taken : Roster} {p : Problem} (composed : m.compose taken = .ok p) :
    ∃ counts, (p.constraints.map (·.name)).Sublist
      ((m.constraints ++ (nameRows { stem := "count", reserved := taken, taken } counts).1).map (·.name)) := by
  obtain ⟨counts, made, composed⟩ := bind_eq_ok.mp composed
  obtain ⟨rows, -, made⟩ := bind_eq_ok.mp made
  cases made
  obtain ⟨kept, finalized, composed⟩ := bind_eq_ok.mp composed
  obtain ⟨objective, -, composed⟩ := bind_eq_ok.mp composed
  cases composed
  exact ⟨rows.flatten, keeping_names (mapM_eq_ok.mp finalized)⟩

/-- Different rows of a program have different names that suit the stem, if those of the matcher do. -/
theorem names_of_compose {m : Matcher} {namer : Namer} {p : Problem} (composed : m.compose namer.taken = .ok p)
    (names : namer.Names (Name.Suits namer.stem) m.constraints) : (p.constraints.map (·.name)).Nodup ∧
      ∀ row ∈ p.constraints, ∃ s, row.name = .text s ∧ Name.Suits namer.stem s := by
  obtain ⟨counts, part⟩ := compose_names composed
  have apart : Namer.Names { stem := "count", reserved := namer.taken, taken := namer.taken }
      (Name.Suits namer.stem) m.constraints := ⟨names.distinct, names.each⟩
  have plain : Namer.isPlainStem "count" = true := by decide +kernel
  have suits (number : Nat) : Name.Suits namer.stem (Namer.numbered "count" number) :=
    Name.suits_of_isUsable ((Namer.isUsable_numbered "count" number).trans plain) _
  obtain ⟨next, all⟩ := apart.nameRows suits counts
  refine ⟨all.distinct.sublist part, fun row member => ?_⟩
  obtain ⟨c, listed, same⟩ := List.mem_map.mp (part.subset (List.mem_map_of_mem member))
  obtain ⟨s, named, -, suits⟩ := all.each c listed
  exact ⟨s, same.symm.trans named, suits⟩

end Matcher

theorem Call.run_stem (call : Call) (desk : Desk) : (outcome call.run desk).2.namer.stem = desk.namer.stem := by
  refine call.run_keeps (fun next => next.namer.stem = desk.namer.stem) (fun mid next edit same => ?_) rfl
  cases edit with
  | row _ _ naming => exact (Matcher.nameRow_renames naming).2.trans same
  | composer | count => exact same

theorem Desk.after_stem (desk : Desk) (calls : List Call) : (desk.after calls).namer.stem = desk.namer.stem := by
  induction calls generalizing desk with
  | nil => rfl
  | cons call calls ih => exact (ih _).trans (call.run_stem desk)

/-- After a call, rows beside those of the matcher still are under other names than these. -/
theorem Call.run_names (call : Call) {desk : Desk} {stem : String} {others : List Constraint}
    (usual : desk.namer.stem = stem) (names : desk.namer.Names (Name.Suits stem) (others ++ desk.matcher.constraints)) :
    (outcome call.run desk).2.namer.Names (Name.Suits stem)
      (others ++ (outcome call.run desk).2.matcher.constraints) := by
  refine (call.run_keeps (fun next => next.namer.stem = stem ∧
    next.namer.Names (Name.Suits stem) (others ++ next.matcher.constraints)) ?_ ⟨usual, names⟩).2
  intro mid next edit held
  obtain ⟨stem, names⟩ := held
  cases edit with
  | row _ _ naming =>
    obtain ⟨s, named, gives, suits⟩ := Matcher.nameRow_gives naming
    rw [stem] at suits
    refine ⟨gives.stem.trans stem, ?_⟩
    have joined := names.append_single gives suits named
    rwa [List.append_assoc] at joined
  | composer | count => exact ⟨stem, names⟩

theorem Desk.after_names {desk : Desk} {stem : String} {others : List Constraint} (usual : desk.namer.stem = stem)
    (names : desk.namer.Names (Name.Suits stem) (others ++ desk.matcher.constraints)) (calls : List Call) :
    (desk.after calls).namer.Names (Name.Suits stem) (others ++ (desk.after calls).matcher.constraints) := by
  induction calls generalizing desk with
  | nil => exact names
  | cons call calls ih => exact ih ((call.run_stem desk).trans usual) (call.run_names usual names)

namespace Session

/-- What is done in a session: something is done with a matcher, or a name is drawn from a namer or
claimed there by its number. -/
inductive Move where
  | act (number : Nat) (action : Action)
  | hand (shared : Nat)
  | claim (shared : Nat) (name : Value)

def after (s : Session) : Move → Session
  | .act number action =>
    match s.bench? number with
    | some bench => s.put number (outcome action.run bench).2
    | none => s
  | .hand shared => { s with namers := s.namers.modify shared fun namer => namer.hand.2 }
  | .claim shared name =>
    { s with namers := s.namers.modify shared fun namer =>
        match namer.claim name with
        | .ok (_, next) => next
        | .error _ => namer }

def run (s : Session) (moves : List Move) : Session := moves.foldl after s

def rowsOf (s : Session) (shared : Nat) : List Constraint :=
  (s.matchers.filter fun entry => entry.2.2 == shared).flatMap (·.1.constraints)

/-- Matchers without rows and without notes; the namers may be any. -/
def IsFresh (s : Session) : Prop := ∀ entry ∈ s.matchers, entry.1.constraints = [] ∧ entry.2.1 = {}

/-- Notes are up to date, and rows under names from one namer have different names. -/
structure IsOrdered (s : Session) : Prop where
  coherent : ∀ entry ∈ s.matchers, ∀ namer, Bench.IsCoherent ⟨⟨entry.1, namer⟩, entry.2.1⟩
  names : ∀ shared (namer : Namer), s.namers[shared]? = some namer → namer.Names (Name.Suits namer.stem) (s.rowsOf shared)

variable {s : Session}

theorem IsFresh.isOrdered (fresh : s.IsFresh) : s.IsOrdered where
  coherent entry member namer := by
    rw [(fresh entry member).2]
    exact Bench.coherent_fresh _
  names shared namer _ := by
    have none : s.rowsOf shared = [] :=
      List.flatMap_eq_nil_iff.mpr fun entry member => (fresh entry (List.mem_of_mem_filter member)).1
    rw [none]
    exact .nil

theorem bench?_eq_some {number : Nat} {bench : Bench} : s.bench? number = some bench ↔
    ∃ shared, s.matchers[number]? = some (bench.desk.matcher, bench.notes, shared) ∧
      s.namers[shared]? = some bench.desk.namer := by
  unfold bench?
  constructor
  · intro found
    obtain ⟨⟨m, notes, shared⟩, entry, found⟩ := Option.bind_eq_some_iff.mp found
    obtain ⟨namer, drawn, found⟩ := Option.bind_eq_some_iff.mp found
    cases found
    exact ⟨shared, entry, drawn⟩
  · rintro ⟨shared, entry, drawn⟩
    simp [entry, drawn]

theorem rowsOf_split (front back : List (Matcher × Notes × Nat)) (m : Matcher) (notes : Notes) (shared other : Nat)
    (namers : List Namer) : rowsOf ⟨front ++ (m, notes, shared) :: back, namers⟩ other =
      rowsOf ⟨front, namers⟩ other ++
        ((if shared = other then m.constraints else []) ++ rowsOf ⟨back, namers⟩ other) := by
  unfold rowsOf
  rw [List.filter_append, List.flatMap_append, List.filter_cons]
  by_cases same : shared = other
  · simp [same]
  · simp [same]

/-- The rows of one matcher beside those of the others with its namer; other namers do not matter. -/
theorem rowsOf_set {number shared : Nat} {m : Matcher} {notes : Notes}
    (entry : s.matchers[number]? = some (m, notes, shared)) : ∃ others,
      (s.rowsOf shared).Perm (others ++ m.constraints) ∧ ∀ (m' : Matcher) (notes' : Notes) (namers : List Namer),
        (rowsOf ⟨s.matchers.set number (m', notes', shared), namers⟩ shared).Perm (others ++ m'.constraints) ∧
        ∀ other ≠ shared, rowsOf ⟨s.matchers.set number (m', notes', shared), namers⟩ other = s.rowsOf other := by
  obtain ⟨inside, found⟩ := List.getElem?_eq_some_iff.mp entry
  let front := s.matchers.take number
  let back := s.matchers.drop (number + 1)
  have whole : s.matchers = front ++ (m, notes, shared) :: back := by
    rw [← found, List.getElem_cons_drop, List.take_append_drop]
  have changed (m' : Matcher) (notes' : Notes) :
      s.matchers.set number (m', notes', shared) = front ++ (m', notes', shared) :: back := by
    rw [List.set_eq_take_append_cons_drop, if_pos inside]
  have old (other : Nat) : s.rowsOf other = rowsOf ⟨front ++ (m, notes, shared) :: back, s.namers⟩ other := by
    rw [← whole]
  have parts (before own behind : List Constraint) : (before ++ (own ++ behind)).Perm ((before ++ behind) ++ own) := by
    rw [List.append_assoc]
    exact List.perm_append_comm.append_left before
  refine ⟨rowsOf ⟨front, s.namers⟩ shared ++ rowsOf ⟨back, s.namers⟩ shared, ?_, fun m' notes' namers => ⟨?_, ?_⟩⟩
  · rw [old, rowsOf_split, if_pos rfl]
    exact parts _ _ _
  · rw [changed, rowsOf_split, if_pos rfl]
    exact parts _ _ _
  · intro other different
    rw [changed, old, rowsOf_split, rowsOf_split, if_neg different.symm, if_neg different.symm]
    rfl

/-- What is done with one matcher leaves its rows and those of the others with its namer ordered. -/
theorem IsOrdered.act (ordered : s.IsOrdered) (number : Nat) (action : Action) :
    (s.after (.act number action)).IsOrdered := by
  cases used : s.bench? number with
  | none =>
    simp only [after, used]
    exact ordered
  | some bench =>
    obtain ⟨shared, entry, drawn⟩ := bench?_eq_some.mp used
    obtain ⟨others, before, changed⟩ := rowsOf_set entry
    obtain ⟨coherent, desk⟩ := action.run_leaves (ordered.coherent _ (List.mem_of_getElem? entry) bench.desk.namer)
    have stem := bench.desk.after_stem action.call?.toList
    have names := Desk.after_names rfl ((ordered.names shared _ drawn).perm before) action.call?.toList
    rw [← desk] at stem names
    simp only [after, used, put, entry]
    generalize (outcome action.run bench).2 = next at coherent stem names ⊢
    obtain ⟨own, apart⟩ := changed next.desk.matcher next.notes (s.namers.set shared next.desk.namer)
    refine ⟨fun other member namer => ?_, fun other namer found => ?_⟩
    · rcases List.mem_or_eq_of_mem_set member with old | rfl
      · exact ordered.coherent other old namer
      · exact coherent
    · rw [List.getElem?_set] at found
      split at found
      · rename_i same
        split at found
        · cases found
          rw [← same, stem]
          exact names.perm own.symm
        · cases found
      · rename_i different
        rw [apart other (Ne.symm different)]
        exact ordered.names other namer found

theorem IsOrdered.modify (ordered : s.IsOrdered) (shared : Nat) {change : Namer → Namer}
    (grows : ∀ namer, change namer = namer ∨ ∃ name, namer.Gives name (change namer)) :
    IsOrdered { s with namers := s.namers.modify shared change } where
  coherent := ordered.coherent
  names other namer found := by
    rw [List.getElem?_modify] at found
    obtain ⟨before, drawn, rfl⟩ := Option.map_eq_some_iff.mp found
    have names := ordered.names other before drawn
    split
    · rcases grows before with same | ⟨name, gives⟩
      · rw [same]
        exact names
      · rw [gives.stem]
        exact names.gives gives
    · exact names

theorem IsOrdered.after (ordered : s.IsOrdered) (move : Move) : (s.after move).IsOrdered := by
  cases move with
  | act number action => exact ordered.act number action
  | hand shared => exact ordered.modify shared fun namer => .inr ⟨_, namer.hand_gives⟩
  | claim shared name =>
    refine ordered.modify shared fun namer => ?_
    cases claimed : namer.claim name with
    | error failure => exact .inl rfl
    | ok given => exact .inr ⟨given.1, (Namer.claim_gives claimed).2.2⟩

theorem IsOrdered.run (ordered : s.IsOrdered) (moves : List Move) : (s.run moves).IsOrdered := by
  induction moves generalizing s with
  | nil => exact ordered
  | cons move moves ih => exact ih (ordered.after move)

/-- In every program that is composed the rows have different names that are not empty and, if the namer
has the usual stem, are words that are neither identifiers nor keywords. Rows of matchers that share a
namer have different names, too. -/
structure IsUnambiguous (s : Session) : Prop where
  programs : ∀ number bench, s.bench? number = some bench → ∀ p next, outcome Bench.problem bench = (.ok p, next) →
    (p.constraints.map (·.name)).Nodup ∧ ∀ row ∈ p.constraints, ∃ name, row.name = .text name ∧ name ≠ "" ∧
      (bench.desk.namer.stem = Matcher.usualStem → Name.isWord name.toList = true ∧
        Identifier.hasForm name = false ∧ Name.isKeyword name = false)
  shared : ∀ shared < s.namers.length, ((s.matchers.filter (·.2.2 == shared)).flatMap fun entry =>
    entry.1.constraints.map (·.name)).Nodup

/-- Whatever has been done in a session, successfully or not, the names of rows are unambiguous. -/
theorem names_apart {start : Session} (fresh : start.IsFresh) (moves : List Move) :
    (start.run moves).IsUnambiguous := by
  have ordered := fresh.isOrdered.run moves
  generalize start.run moves = s at ordered ⊢
  refine ⟨fun number bench used p next composed => ?_, fun shared inside => ?_⟩
  · obtain ⟨shared, entry, drawn⟩ := bench?_eq_some.mp used
    obtain ⟨others, before, -⟩ := rowsOf_set entry
    have names := ((ordered.names shared _ drawn).perm before).sublist (List.sublist_append_right _ _)
    have told := Bench.problem_tells.answers (ordered.coherent _ (List.mem_of_getElem? entry) bench.desk.namer)
    rw [composed] at told
    obtain ⟨distinct, each⟩ := Matcher.names_of_compose told.symm names
    refine ⟨distinct, fun row member => ?_⟩
    obtain ⟨name, named, some, suits⟩ := each row member
    refine ⟨name, named, some, fun usual => ?_⟩
    simpa [Name.isUsable, and_assoc] using suits usual
  · have names := ordered.names shared _ (List.getElem?_eq_getElem inside)
    have distinct := names.distinct
    rwa [rowsOf, List.map_flatMap] at distinct

def twins (m : Matcher) : Session := ⟨[(m, {}, 0), (m, {}, 0)], [{}]⟩

/-- Names of all kinds are drawn and claimed before two matchers get rows and a count. -/
theorem names_apart_of_two : ∃ m s, Matcher.build [(.text "a", .list [.text "x"])] .null .null = .ok m ∧
    (twins m).IsFresh ∧ (twins m).run [.claim 0 (.text "count0"), .hand 0,
      .act 0 (.configure (.exclude [] (.text "constraint1"))), .act 1 (.configure (.require .ge [] (.int 1) .null)),
      .act 1 (.configure (.setCount (.text "a") (.int 1) (.int 0)))] = s ∧
    (∃ bench, s.bench? 1 = some bench) ∧ s.IsUnambiguous := by
  obtain ⟨m, mapping, built, -⟩ := Matcher.build_single
  obtain ⟨table, -, -, -, holds⟩ := Matcher.holds_of_build mapping built
  have none : m.constraints = [] := List.eq_nil_iff_forall_not_mem.mpr (holds fun _ => False).rows
  have fresh : (twins m).IsFresh := by
    intro entry member
    rcases List.mem_pair.mp member with rfl | rfl <;> exact ⟨none, rfl⟩
  exact ⟨m, _, built, fresh, rfl, ⟨_, rfl⟩, names_apart fresh _⟩

end Session

end Matchmaking
