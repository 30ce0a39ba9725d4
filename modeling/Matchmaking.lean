import Matchmaking.Proofs.Constraint.Finalizing
import Matchmaking.Proofs.Constraint.Numbering
import Matchmaking.Proofs.Matcher.Attainment
import Matchmaking.Proofs.Matcher.Finalized
import Matchmaking.Proofs.Matcher.Independence
import Matchmaking.Proofs.Matcher.Leftovers
import Matchmaking.Proofs.Matcher.Outputs
import Matchmaking.Proofs.Matcher.Overlaps
import Matchmaking.Proofs.Matcher.Refusal
import Matchmaking.Proofs.Matcher.Rendering
import Matchmaking.Proofs.Problem.Agreement
import Matchmaking.Proofs.Problem.Scaling
import Matchmaking.Proofs.Solver.Echo
import Matchmaking.Proofs.Solver.Exit
import Matchmaking.Proofs.Solver.Insertion
import Matchmaking.Proofs.Space.Filtering
import Matchmaking.Proofs.Space.Odometer
import Matchmaking.Space.RawView
