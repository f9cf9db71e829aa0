import Deferral.Action.Basic
import Deferral.Action.Combinators
import Deferral.Action.Lemmas
import Deferral.Action.Run
import Deferral.Carrier.Basic
import Deferral.Carrier.Instances
import Deferral.Either.Order
import Deferral.Fault.Layout
import Deferral.Host
import Deferral.Loop
import Deferral.Merge.Action
import Deferral.Merge.Basic
import Deferral.Merge.Bounded
import Deferral.Merge.Kind
import Deferral.Ranked
import Deferral.Script.Eval
import Deferral.Script.Outcome
import Deferral.Script.Plan
import Deferral.Script.Prim
import Deferral.Script.Session
import Deferral.Script.Sided
import Deferral.Script.Term
import Deferral.Script.Value
import Deferral.Script.World
import Deferral.Text.Layout
import Deferral.Text.Quoted
import Deferral.Work
import Deferral.Proofs.Steady
import Deferral.Proofs.Course
import Deferral.Proofs.Recipe
import Deferral.Proofs.Adequacy
import Deferral.Proofs.Chain
import Deferral.Proofs.Gives
import Deferral.Proofs.Program
import Deferral.Proofs.Agreement
import Deferral.Proofs.Rounds
import Deferral.Proofs.Containment
import Deferral.Proofs.Deeds
import Deferral.Proofs.Journal
import Deferral.Proofs.Unrolling
import Deferral.Proofs.Handlers
import Deferral.Proofs.Items
import Deferral.Proofs.Building
import Deferral.Proofs.Direct
import Deferral.Proofs.Mirrors
import Deferral.Proofs.Interchange
import Deferral.Proofs.Spans
import Deferral.Proofs.Trees
import Deferral.Proofs.Applicative
import Deferral.Proofs.Coherence
import Deferral.Proofs.Reflection
import Deferral.Proofs.Callbacks
import Deferral.Proofs.Comparing
import Deferral.Proofs.Groupings
import Deferral.Proofs.Tags
import Deferral.Proofs.Spending
import Deferral.Proofs.Once
import Deferral.Proofs.Sameness
import Deferral.Proofs.Tame
import Deferral.Proofs.Sparing
import Deferral.Proofs.Reckoning
import Deferral.Proofs.Running
import Deferral.Proofs.Copies
import Deferral.Proofs.Brackets
import Deferral.Proofs.Absent
import Deferral.Proofs.Lines
import Deferral.Proofs.Parts
import Deferral.Proofs.Ranking
import Deferral.Proofs.Sides
import Deferral.Proofs.Reading
import Deferral.Proofs.Forms
import Deferral.Proofs.Outlines
