import Matchmaking.Proofs.Matcher.Acceptance
import Matchmaking.Proofs.Matcher.Parts
import Matchmaking.Proofs.Space.Knowledge

/-! Parts of calls that nothing but an unknown name or element stands in the way of. Such a part is
made if its restriction is known, and it is refused for what is unknown if it is not. Parts that are
to be named apart stay as they are while others are made. -/
namespace Matchmaking

open Stateful

namespace Namer

variable {namer next : Namer} {name : Value}

/-- A name that a row can get: any text that can be claimed, or none, to be given the next one. -/
def Offers (namer : Namer) (name : Value) : Prop := name.truth = false ∨ ∃ given, namer.claim name = .ok given

theorem claim_iff : (∃ given, namer.claim name = .ok given) ↔
    ∃ s, Name.check name = .ok s ∧ namer.isTaken s = false := by
  constructor
  · rintro ⟨⟨s, next⟩, claimed⟩
    obtain ⟨-, checked, gives⟩ := claim_gives claimed
    exact ⟨s, checked, gives.free⟩
  · rintro ⟨s, checked, free⟩
    exact ⟨_, by simp only [claim, checked, ok_bind, free]; rfl⟩

theorem Offers.taken (offers : namer.Offers name) {names : List Value}
    (taken : next.taken.keys = namer.taken.keys ++ names)
    (apart : name.truth = true → ∀ v ∈ names, ∃ s, v = .text s ∧ name ≠ .text s) :
    next.Offers name := by
  rcases Bool.eq_false_or_eq_true name.truth with named | unnamed
  · obtain ⟨s, checked, free⟩ := claim_iff.mp (offers.resolve_left (by simp [named]))
    refine .inr (claim_iff.mpr ⟨s, checked, Bool.eq_false_iff.mpr fun held => ?_⟩)
    rw [isTaken_iff, texts, taken, List.filterMap_append, List.mem_append, ← texts, ← isTaken_iff, free] at held
    obtain ⟨v, listed, text⟩ := List.mem_filterMap.mp (held.resolve_left Bool.false_ne_true)
    obtain ⟨_, rfl, other⟩ := apart named v listed
    cases text
    exact other (Name.check_eq_ok checked).1
  · exact .inl unnamed

end Namer

namespace Matcher

variable {desk next : Desk} {c row : Constraint} {view : View} {target name : Value} {op : Operator}

theorem nameRow_offers {namer : Namer} (offers : namer.Offers c.name) :
    ∃ row next, nameRow namer c = .ok (row, next) := by
  rcases offers with unnamed | ⟨⟨s, next⟩, claimed⟩
  · exact ⟨_, _, by rw [nameRow, unnamed, if_neg Bool.false_ne_true]⟩
  · unfold nameRow
    split
    · exact ⟨c, next, by rw [claimed]; rfl⟩
    · exact ⟨_, _, rfl⟩

theorem checkVariables_decides (space : View) (ids : List String) : Decides (checkVariables space (ids.map .text))
    (∀ id ∈ ids, space.contains (.text id) = true) Failure.IsUnknown := by
  induction ids with
  | nil => exact Decides.ok.congr (by simp)
  | cons id rest ih =>
    rw [List.forall_mem_cons, List.map_cons, checkVariables]
    split
    · rename_i taken
      exact ih.congr (and_iff_right taken).symm
    · rename_i refused
      exact .inr ⟨fun both => refused both.1, _, rfl, Failure.isUnknown_of_sentence rfl ⟨_, rfl⟩⟩

theorem addRow_decides {ids : List String} (texts : c.unknowns = ids.map .text) (offers : desk.namer.Offers c.name) :
    Decides (outcome (addRow c) desk).1 (∀ id ∈ ids, desk.matcher.space.contains (.text id) = true)
      Failure.IsUnknown := by
  have checked := checkVariables_decides desk.matcher.space ids
  rw [← texts] at checked
  rcases checked with ⟨taken, ⟨⟩, checked⟩ | ⟨not, failure, refused, unknown⟩
  · obtain ⟨row, namer, naming⟩ := nameRow_offers offers
    exact .inl ⟨taken, row, congrArg Prod.fst (addRow_accepts checked naming)⟩
  · refine .inr ⟨not, failure, ?_, unknown⟩
    simp only [addRow, outcome_bind, outcome_get, outcome_lift, refused]

/-- A row for a restriction is added just if the restriction is known and its variables are those of the space. -/
theorem requirePart_decides {table : Table} {restriction : Keyed Value} {parts place : Nat} (sound : table.Sound)
    (named : table.IsNamed) (space : desk.matcher.space = .whole table) (reads : table.Reads restriction)
    (counted : target = .null → ∀ view, (View.whole table).subset restriction = .ok view →
      ∃ size, view.length = .ok size)
    (offered : ∃ given, partName name parts place = .ok given ∧ desk.namer.Offers given) :
    Decides (outcome (requirePart op target name parts (restriction, place)) desk).1
      (table.Knows restriction ∧ ∀ view, (View.whole table).subset restriction = .ok view →
        ∀ id ∈ view.ids, (View.whole table).contains (.text id) = true) Failure.IsUnknown := by
  have narrows := View.subset_decides (View.sound_whole sound) named (fun name held => (reads.keys name held).1)
    reads.spells
  unfold requirePart
  rw [outcome_bind, outcome_get]
  dsimp only
  rw [space]
  rcases narrows with ⟨known, view, narrowed⟩ | ⟨not, failure, refused, unknown⟩
  · apply Decides.congr (P := ∀ id ∈ view.ids, (View.whole table).contains (.text id) = true)
    · rw [narrowed, outcome_bind, outcome_lift]
      dsimp only
      split
      · rename_i empty
        rw [View.isEmpty_iff] at empty
        exact Decides.ok.congr (by simp [empty])
      · obtain ⟨given, called, offers⟩ := offered
        have added := addRow_decides (c := rowOf view op (targetOf target view) given) rfl offers
        rw [space] at added
        rw [called, outcome_bind, outcome_lift]
        have joined := decides_bind_return (f := some) added
        cases target with
        | null =>
          obtain ⟨size, length⟩ := counted rfl view narrowed
          obtain rfl := View.length_eq_ok length
          simp only [length]
          exact joined
        | _ => exact joined
    · constructor
      · intro taken
        refine ⟨known, fun other found => ?_⟩
        cases narrowed.symm.trans found
        exact taken
      · exact fun both => both.2 view narrowed
  · refine .inr ⟨fun both => not both.1, failure, ?_, unknown⟩
    simp only [outcome_bind, outcome_lift, refused]

theorem addComposer_decides {table : Table} {restriction : Keyed Value} {weight : Value} (sound : table.Sound)
    (named : table.IsNamed) (space : desk.matcher.space = .whole table) (reads : table.Reads restriction)
    (weighed : ∃ checked, Weight.check weight = .ok checked) :
    Decides (outcome (addComposer restriction weight) desk).1 (table.Knows restriction) Failure.IsUnknown := by
  obtain ⟨checked, weighed⟩ := weighed
  have offered : Decides (outcome (offer restriction weight) desk).1 (table.Knows restriction) Failure.IsUnknown := by
    rw [outcome_offer, space, weighed]
    exact (View.subset_decides (View.sound_whole sound) named (fun name held => (reads.keys name held).1)
      reads.spells).bind_return
  refine (decides_bind (Q := True) offered fun composer mid _ => ?_).congr (and_iff_left trivial)
  unfold enlist
  cases composer.view.isEmpty <;> exact Decides.ok

end Matcher

namespace Part

variable {table : Table} {desk next : Desk} {part : Part} {added : Added}

/-- A part with which nothing is wrong unless its restriction is unknown: the restriction can be looked through,
a number of tuples that is asked for can be counted, a name can be given and a weight is one. -/
def IsFit (table : Table) (namer : Namer) : Part → Prop
  | .row _ restriction target name parts place => table.Reads restriction ∧
      (target = .null → ∀ view, (View.whole table).subset restriction = .ok view → ∃ size, view.length = .ok size) ∧
      ∃ given, Matcher.partName name parts place = .ok given ∧ namer.Offers given
  | .composer restriction weight => table.Reads restriction ∧ ∃ checked, Weight.check weight = .ok checked

/-- The restriction of a part is known and the variables of a row for it are taken for those of the space. -/
def Passes (table : Table) : Part → Prop
  | .row _ restriction .. => table.Knows restriction ∧ ∀ view, (View.whole table).subset restriction = .ok view →
      ∀ id ∈ view.ids, (View.whole table).contains (.text id) = true
  | .composer restriction _ => table.Knows restriction

theorem Passes.knows (passes : part.Passes table) : table.Knows part.restriction := by
  cases part with
  | row => exact passes.1
  | composer => exact passes

/-- The row of the second part can have its name even if the first part has got its own before. -/
def Apart (first second : Part) : Prop := ∀ given other, first.named = .ok given → second.named = .ok other →
  other.truth = true → given.truth = true ∧ other ≠ given

/-- A fit part is made just if it passes, and is refused for what is unknown otherwise. -/
theorem run_decides (sound : table.Sound) (named : table.IsNamed) (space : desk.matcher.space = .whole table)
    (fit : part.IsFit table desk.namer) : Decides (outcome part.run desk).1 (part.Passes table) Failure.IsUnknown := by
  cases part with
  | row op restriction target name parts place =>
    obtain ⟨reads, counted, offered⟩ := fit
    exact decides_bind_return (f := fun row => Added.mk row.toList [])
      (Matcher.requirePart_decides sound named space reads counted offered)
  | composer restriction weight =>
    obtain ⟨reads, weighed⟩ := fit
    exact decides_bind_return (f := fun composer => Added.mk [] composer.toList)
      (Matcher.addComposer_decides sound named space reads weighed)

theorem IsFit.later {first : Part} (fit : part.IsFit table desk.namer) (gives : first.run.Gives desk added next)
    (apart : first.Apart part) : part.IsFit table next.namer := by
  obtain ⟨grows, names⟩ := run_grows gives
  cases part with
  | row op restriction target name parts place =>
    obtain ⟨reads, counted, given, called, offers⟩ := fit
    refine ⟨reads, counted, given, called, offers.taken grows.taken fun own v member => ?_⟩
    obtain ⟨row, listed, rfl⟩ := List.mem_map.mp member
    obtain ⟨other, s, meant, named, text⟩ := names row listed
    obtain ⟨truth, different⟩ := apart other given meant called own
    exact ⟨s, named, text truth ▸ different⟩
  | composer => exact fit

structure AllFit (table : Table) (parts : List Part) (desk : Desk) : Prop where
  space : desk.matcher.space = .whole table
  each : ∀ part ∈ parts, part.IsFit table desk.namer
  apart : parts.Pairwise Apart

theorem AllFit.single (space : desk.matcher.space = .whole table) (fit : part.IsFit table desk.namer) :
    AllFit table [part] desk where
  space := space
  each other member := by
    rw [List.mem_singleton.mp member]
    exact fit
  apart := List.pairwise_singleton ..

theorem AllFit.unnamed {α : Type} {made : α → Part} {xs : List α} (space : desk.matcher.space = .whole table)
    (fit : ∀ x ∈ xs, (made x).IsFit table desk.namer) (unnamed : ∀ x, (made x).named = .ok .null) :
    AllFit table (xs.map made) desk where
  space := space
  each part member := by
    obtain ⟨x, listed, rfl⟩ := List.mem_map.mp member
    exact fit x listed
  apart := by
    refine List.pairwise_map.mpr (List.pairwise_of_forall fun _ x _ other _ called own => ?_)
    cases (unnamed x).symm.trans called
    cases own

/-- Fit parts are all made just if they all pass, and the first that does not pass is refused for what is unknown. -/
theorem mapM_decides (sound : table.Sound) (named : table.IsNamed) {parts : List Part} (fit : AllFit table parts desk) :
    Decides (outcome (parts.mapM run) desk).1 (∀ part ∈ parts, part.Passes table) Failure.IsUnknown := by
  refine decides_mapM (fun part rest desk fit => ?_) fit
  obtain ⟨first, others⟩ := List.forall_mem_cons.mp fit.each
  obtain ⟨apart, among⟩ := List.pairwise_cons.mp fit.apart
  refine ⟨run_decides sound named fit.space first, fun added next gives => ?_⟩
  have space : next.matcher.space = desk.matcher.space := by rw [(run_grows gives).1.matcher]; rfl
  exact ⟨space.trans fit.space, fun other member => (others other member).later gives (apart other member), among⟩

end Part

end Matchmaking
