import Matchmaking.Proofs.Constraint.Handing
import Matchmaking.Proofs.Value.Grouping

/-! Runs of a namer. Whatever has been asked of it, the next name has the least free number from its counter on, and
the search for it ends after as many names as it passes. The names that were given out since the last reset are
different from each other and from those that are reserved, and a namer that is reset is as good as new. -/
namespace Matchmaking

namespace Namer

variable {namer next start : Namer} {name : String} {names : List String}

theorem seek_least {fuel first number : Nat} (found : namer.seek fuel first = some number) :
    first ≤ number ∧ number < first + fuel ∧
      ∀ other, first ≤ other → other < number → namer.isTaken (numbered namer.stem other) = true := by
  induction fuel generalizing first with
  | zero => cases found
  | succ fuel ih =>
    rw [seek] at found
    split at found
    · rename_i taken
      obtain ⟨above, below, passed⟩ := ih found
      refine ⟨by omega, by omega, fun other from_ before => ?_⟩
      by_cases same : other = first
      · rw [same]
        exact taken
      · exact passed other (by omega) before
    · cases found
      exact ⟨Nat.le_refl _, by omega, fun other from_ before => by omega⟩

/-- A search that has steps enough to come to the first free number finds it. -/
theorem seek_of_least {fuel first number : Nat} (above : first ≤ number) (below : number < first + fuel)
    (free : namer.isTaken (numbered namer.stem number) = false)
    (passed : ∀ other, first ≤ other → other < number → namer.isTaken (numbered namer.stem other) = true) :
    namer.seek fuel first = some number := by
  induction fuel generalizing first with
  | zero => omega
  | succ fuel ih =>
    rw [seek]
    by_cases same : first = number
    · subst same
      simp [free]
    · rw [if_pos (passed first (Nat.le_refl _) (by omega))]
      exact ih (by omega) (by omega) fun other from_ => passed other (by omega)

/-- The number of the next name is the least from the counter on whose name is free. A search finds it just if it
may go on until there. -/
structure NextIs (namer : Namer) (number : Nat) : Prop where
  name : namer.hand.1 = numbered namer.stem number
  counter : namer.hand.2.next = number + 1
  above : namer.next ≤ number
  free : namer.isTaken (numbered namer.stem number) = false
  passed : ∀ other, namer.next ≤ other → other < number → namer.isTaken (numbered namer.stem other) = true
  found : ∀ steps, namer.seek steps namer.next = some number ↔ number < namer.next + steps

theorem exists_next (namer : Namer) : ∃ number, namer.NextIs number := by
  obtain ⟨number, found⟩ := namer.seek_succeeds namer.next
  have least : namer.nextFree = number := by simp [nextFree, found]
  have free := seek_free found
  obtain ⟨above, -, passed⟩ := seek_least found
  refine ⟨number, by simp [hand, least], by simp [hand, least], above, free, passed, fun steps => ?_⟩
  constructor
  · exact fun found => (seek_least found).2.1
  · exact fun below => seek_of_least above below free passed

theorem claim_keeps {v : Value} (claimed : namer.claim v = .ok (name, next)) :
    next.reserved = namer.reserved ∧ next.next = namer.next := by
  obtain ⟨_, -, claimed⟩ := bind_eq_ok.mp claimed
  split at claimed
  · cases claimed
  · cases claimed
    exact ⟨rfl, rfl⟩

theorem ask_claim (namer : Namer) (v : Value) :
    (∃ failure, namer.claim v = .error failure ∧ namer.ask (.claim v) = (.error failure, namer)) ∨
      ∃ name next, namer.claim v = .ok (name, next) ∧ namer.ask (.claim v) = (.ok (some name), next) := by
  cases claimed : namer.claim v with
  | error failure => exact .inl ⟨failure, rfl, by simp [ask, claimed]⟩
  | ok outcome => exact .inr ⟨outcome.1, outcome.2, rfl, by simp [ask, claimed]⟩

def answers (namer : Namer) : List Request → List (Except Failure (Option String))
  | [] => []
  | request :: later => (namer.ask request).1 :: answers (namer.ask request).2 later

/-- The names given out since the last reset, those that were before a request being known. -/
def givenBy (namer : Namer) (names : List String) : Request → List String
  | .reset => []
  | request => names ++ (namer.ask request).1.toOption.join.toList

/-- The names given out since the last reset. -/
def given (namer : Namer) (names : List String) : List Request → List String
  | [] => names
  | request :: later => given (namer.ask request).2 (namer.givenBy names request) later

/-- Exactly the names that are reserved and those that were given out are taken, each for one reason. -/
structure Issued (start namer : Namer) (names : List String) : Prop where
  stem : namer.stem = start.stem
  reserved : namer.reserved = start.reserved
  keys : namer.taken.keys = start.reserved.keys ++ names.map .text
  distinct : names.Nodup
  unreserved : ∀ name ∈ names, start.reserved.has (.text name) = false

namespace Issued

theorem fresh (taken : start.taken = start.reserved) : Issued start start [] where
  stem := rfl
  reserved := rfl
  keys := by simp [taken]
  distinct := .nil
  unreserved := by simp

theorem isTaken_iff (issued : Issued start namer names) :
    namer.isTaken name = true ↔ name ∈ names ∨ start.reserved.has (.text name) = true := by
  rw [Namer.isTaken_iff, texts, issued.keys, Roster.has_iff]
  simp [Value.same_text_iff, Value.text?, or_comm]

theorem gives (issued : Issued start namer names) (gives : namer.Gives name next)
    (reserved : next.reserved = namer.reserved) : Issued start next (names ++ [name]) := by
  have new : ¬(name ∈ names ∨ start.reserved.has (.text name) = true) := by
    rw [← issued.isTaken_iff, gives.free]
    exact Bool.false_ne_true
  obtain ⟨other, unreserved⟩ := not_or.mp new
  refine ⟨gives.stem.trans issued.stem, reserved.trans issued.reserved, ?_, ?_, ?_⟩
  · simp [gives.keys, issued.keys]
  · apply issued.distinct.append (List.nodup_singleton name)
    simpa using other
  · intro given member
    rcases List.mem_append.mp member with old | new
    · exact issued.unreserved given old
    · rw [List.mem_singleton.mp new]
      exact Bool.eq_false_iff.mpr unreserved

theorem ask (taken : start.taken = start.reserved) (issued : Issued start namer names) (request : Request) :
    Issued start (namer.ask request).2 (namer.givenBy names request) := by
  cases request with
  | next => exact issued.gives namer.hand_gives rfl
  | claim v =>
    rcases ask_claim namer v with ⟨failure, -, asked⟩ | ⟨name, next, claimed, asked⟩
    · simpa [givenBy, asked, Except.toOption] using issued
    · have gives := issued.gives (claim_gives claimed).2.2 (claim_keeps claimed).1
      simpa [givenBy, asked, Except.toOption] using gives
  | reset =>
    have again : (namer.ask .reset).2.taken.keys = start.reserved.keys := congrArg Filing.keys issued.reserved
    exact { fresh taken with stem := issued.stem, reserved := issued.reserved, keys := by simp [again, givenBy] }

theorem after (taken : start.taken = start.reserved) (issued : Issued start namer names) (requests : List Request) :
    Issued start (namer.after requests) (namer.given names requests) := by
  induction requests generalizing namer names with
  | nil => exact issued
  | cons request later ih => exact ih (issued.ask taken request)

end Issued

/-- Whatever has been asked of a namer since it was made, the next name is its stem with the least number from its
counter on whose name is free, which is found in time. Taken are the names that are reserved and those that were given
out since the last reset, and no name is taken twice. A claim that is refused changes nothing, one that is met leaves
the counter alone, and once reset the namer answers as when it was made. -/
theorem run_of_requests (stem : String) {reserved : Value} {names : List Value}
    (read : reserved.traverse Value.asKey = .ok names) (requests : List Request) :
    ∃ start, make (.text stem) reserved = .ok start ∧ start.next = 0 ∧
      let namer := start.after requests
      let given := start.given [] requests
      namer.stem = stem ∧ (∃ number, namer.NextIs number) ∧
      (∀ name, namer.isTaken name = true ↔ name ∈ given ∨ name ∈ names.filterMap Value.text?) ∧
      given.Nodup ∧ (∀ name ∈ given, name ∉ names.filterMap Value.text?) ∧
      (∀ v, (namer.ask (.claim v)).2.next = namer.next) ∧
      (∀ v failure next, namer.ask (.claim v) = (.error failure, next) → next = namer) ∧
      ∀ more, namer.reset.answers more = start.answers more := by
  let start : Namer := ⟨stem, 0, .ofList names, .ofList names⟩
  have made : make (.text stem) reserved = .ok start := by
    have spelled : Failure.shown (.text stem) = .ok stem := rfl
    simp only [make, spelled, read, ok_bind]
    rfl
  have fresh : Issued start start [] := .fresh rfl
  have issued := fresh.after rfl requests
  refine ⟨start, made, rfl, issued.stem, exists_next _, fun name => ?_, issued.distinct, fun name member held => ?_,
    fun v => ?_, fun v failure next failed => ?_, fun more => ?_⟩
  · rw [issued.isTaken_iff, Roster.has_ofList_text]
  · have free := issued.unreserved name member
    rw [Roster.has_ofList_text.mpr held] at free
    cases free
  · rcases ask_claim _ v with ⟨_, -, asked⟩ | ⟨name, next, claimed, asked⟩
    · rw [asked]
    · rw [asked]
      exact (claim_keeps claimed).2
  · rcases ask_claim _ v with ⟨_, -, asked⟩ | ⟨name, next, -, asked⟩
    · cases asked.symm.trans failed
      rfl
    · cases asked.symm.trans failed
  · have again : (start.after requests).reset = start := by
      rw [reset, issued.stem, issued.reserved]
    rw [again]

/-- With two names reserved, the first name after a reset has the number between them. -/
theorem run_of_reset : ∃ start, make (.text "count") (.list [.text "count0", .text "count2"]) = .ok start ∧
    (start.after [.next, .claim (.text "guard"), .reset]).hand.1 = "count1" ∧
    (start.given [] [.next, .claim (.text "guard"), .next]).Nodup := by
  have read : (Value.list [.text "count0", .text "count2"]).traverse Value.asKey =
      .ok [.text "count0", .text "count2"] := rfl
  obtain ⟨start, made, -, stem, ⟨number, next⟩, taken, -⟩ :=
    run_of_requests "count" read [.next, .claim (.text "guard"), .reset]
  obtain ⟨start', made', -, -, -, -, distinct, -⟩ :=
    run_of_requests "count" read [.next, .claim (.text "guard"), .next]
  cases made.symm.trans made'
  have first : number = 1 := by
    have held (i : Nat) := taken (numbered "count" i)
    have passed := next.passed 1 (Nat.zero_le _)
    have free := next.free
    rw [stem] at passed free
    have zero : number ≠ 0 := by
      rintro rfl
      rw [(held 0).mpr (.inr (by decide +kernel))] at free
      cases free
    have one : ¬1 < number := by
      intro more
      rcases (held 1).mp (passed more) with given | reserved
      · cases given
      · exact absurd reserved (by decide +kernel)
    omega
  refine ⟨start, made, ?_, distinct⟩
  rw [next.name, stem, first]
  decide +kernel

end Namer

end Matchmaking
