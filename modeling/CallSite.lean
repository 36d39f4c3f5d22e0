import CallSite.Eval.Allowance
import CallSite.Session
import CallSite.Tree.Display
import CallSite.Tree.WellFormed
import CallSite.Proofs.Logic.Postcondition
import CallSite.Proofs.Logic.Alongside
import CallSite.Proofs.Code.Everywhere
import CallSite.Proofs.Code.Renaming
import CallSite.Proofs.Text.ReadBack
import CallSite.Proofs.Text.PrintedLines
import CallSite.Proofs.Operator.Division
import CallSite.Proofs.Display.Layout
import CallSite.Proofs.Display.Identity
import CallSite.Proofs.Display.Indentation
import CallSite.Proofs.Scope.Frame
import CallSite.Proofs.Scope.Operations
import CallSite.Proofs.Scope.Lookup
import CallSite.Proofs.Scope.Record
import CallSite.Proofs.Run.Change
import CallSite.Proofs.Run.Reached
import CallSite.Proofs.Run.WellFormed
import CallSite.Proofs.Run.LexicalScope
import CallSite.Proofs.Run.Blame
import CallSite.Proofs.Run.Redeclaration
import CallSite.Proofs.Run.Return
import CallSite.Proofs.Run.Surroundings
import CallSite.Proofs.Run.Renaming
import CallSite.Proofs.Run.DepthLimit
import CallSite.Proofs.Run.Termination
import CallSite.Proofs.Run.CallRank
import CallSite.Proofs.Host.Reuse
import CallSite.Proofs.Host.History
import CallSite.Proofs.Host.Reporting
import CallSite.Proofs.Run.ExitValue
import CallSite.Proofs.Run.Budget
import CallSite.Proofs.Run.Output
import CallSite.Proofs.Logic.Ending
import CallSite.Proofs.Sample.RecursiveSum
import CallSite.Proofs.Sample.Fibonacci
import CallSite.Proofs.Report.Colours
import CallSite.Proofs.Report.Verbatim
import CallSite.Proofs.Report.Guard
import CallSite.Proofs.Host.Paths
