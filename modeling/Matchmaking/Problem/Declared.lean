import Matchmaking.Problem.Basic

/-! The variables that a model declares for a program, and what of the program's objective and rows
is about them. -/
namespace Matchmaking

/-- What is made of the variables of a program, each without repetitions. Of the same variable met
again the first identifier and the last datum stay. -/
def Problem.declare {β : Type} (p : Problem) (make : Value → Except Failure β) :
    Reading (Keyed β) := do
  let made ← Streams.walk (fun id => do
    let datum ← make id
    return (← id.asKey, datum)) p.unknowns
  return Keyed.ofPairs made

/-- The same for data that are made one after the other in a model that each of them changes. -/
def Problem.declareIn {β σ : Type} (p : Problem) (make : Value → σ → Except Failure (β × σ)) (model : σ) :
    Reading (Keyed β × σ) := do
  let (made, model) ← Streams.fold (fun (made, model) id => do
    let (datum, model) ← make id model
    return ((← id.asKey, datum) :: made, model)) ([], model) p.unknowns
  return (Keyed.ofPairs made.reverse, model)

/-- The weights of a program's objective, each with what its variable is declared as. -/
def Problem.termsOver {β : Type} (p : Problem) (declared : Lookup β) : List (Value × β) :=
  p.terms.filterMap fun (id, weight) => (declared.get? id).map (weight, ·)

/-- The variables of a row, with repetitions, as far as they are declared. -/
def Constraint.members {β : Type} (c : Constraint) (declared : Lookup β) :
    Except Failure (List β) := do
  return (← c.unknowns.mapM Value.asKey).filterMap declared.get?

end Matchmaking
