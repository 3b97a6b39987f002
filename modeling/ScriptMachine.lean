import ScriptMachine.CommandLine
import ScriptMachine.Folder
import ScriptMachine.Main
import ScriptMachine.Proofs.Ends
import ScriptMachine.Proofs.Equation
import ScriptMachine.Proofs.Grammar
import ScriptMachine.Proofs.Growth
import ScriptMachine.Proofs.Position
import ScriptMachine.Proofs.Primitive
import ScriptMachine.Proofs.Stack
import ScriptMachine.Proofs.Propriety
import ScriptMachine.Proofs.Preservation
import ScriptMachine.Proofs.Placement
import ScriptMachine.Proofs.Outcome
import ScriptMachine.Proofs.Progress
import ScriptMachine.Proofs.Simulation
import ScriptMachine.Proofs.Structured
import ScriptMachine.Proofs.Session
import ScriptMachine.Proofs.Parallel
import ScriptMachine.Proofs.Correspondence
import ScriptMachine.Proofs.Lockstep
import ScriptMachine.Proofs.Tracing
import ScriptMachine.Proofs.Agreement
import ScriptMachine.Proofs.Layout
import ScriptMachine.Proofs.Flow
import ScriptMachine.Proofs.Regime
import ScriptMachine.Proofs.Conduct
import ScriptMachine.Proofs.Exploration
import ScriptMachine.Proofs.Address
import ScriptMachine.Proofs.Member
import ScriptMachine.Proofs.Move
import ScriptMachine.Proofs.Unwinding
import ScriptMachine.Proofs.Prototype
import ScriptMachine.Proofs.StaticScope
import ScriptMachine.Proofs.Scoping
import ScriptMachine.Proofs.Replay
import ScriptMachine.Proofs.Repetition
import ScriptMachine.Proofs.Invocation
import ScriptMachine.Proofs.Protection
import ScriptMachine.Proofs.Sequel
import ScriptMachine.Proofs.Vetting
import ScriptMachine.Proofs.Independence
import ScriptMachine.Proofs.Invariance
import ScriptMachine.Proofs.Numbering
import ScriptMachine.Proofs.Transparency
import ScriptMachine.Proofs.Linking
import ScriptMachine.Proofs.Itinerary
import ScriptMachine.Proofs.Confinement
import ScriptMachine.Proofs.Request
import ScriptMachine.Proofs.Parameters
import ScriptMachine.Proofs.Spelling
import ScriptMachine.Proofs.Grounding
import ScriptMachine.Proofs.Keys
import ScriptMachine.Proofs.Oblivious
import ScriptMachine.Proofs.CallPosition
import ScriptMachine.Proofs.History
import ScriptMachine.Proofs.Reference
import ScriptMachine.Proofs.Acceptance
import ScriptMachine.Proofs.Brevity
import ScriptMachine.Proofs.Formatting
import ScriptMachine.Proofs.Literal
import ScriptMachine.Proofs.Precedence
import ScriptMachine.Proofs.Preorder
import ScriptMachine.Proofs.NumericKeys
import ScriptMachine.Proofs.Shaping
