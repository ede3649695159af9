import RequestSuite.Main
import RequestSuite.Proofs.Escaping
import RequestSuite.Proofs.BuildFailure
import RequestSuite.Proofs.BuildResult
import RequestSuite.Proofs.TestName
import RequestSuite.Service.Content
import RequestSuite.Shape.Request
import RequestSuite.Proofs.ImportPath
import RequestSuite.Proofs.Brackets
import RequestSuite.Proofs.Splitting
import RequestSuite.Proofs.GuardedTest
import RequestSuite.Proofs.Ink
import RequestSuite.Proofs.StatementCopy
import RequestSuite.Proofs.Skeleton
import RequestSuite.Proofs.Scopes
import RequestSuite.Proofs.Indentation
import RequestSuite.Proofs.Injection
import RequestSuite.Proofs.WrittenText
import RequestSuite.Proofs.FileScopes
import RequestSuite.Proofs.EarlyReads
import RequestSuite.Proofs.CallOrder
import RequestSuite.Proofs.DirectoryOrder
import RequestSuite.Proofs.Containment
import RequestSuite.Proofs.Collisions
import RequestSuite.Proofs.PlanWalk
import RequestSuite.Proofs.RetriedBuilds
import RequestSuite.Proofs.Refusal
import RequestSuite.Proofs.RequestData
import RequestSuite.Proofs.ClientCall
import RequestSuite.Proofs.VisitedItems
import RequestSuite.Proofs.LiteralCopies
import RequestSuite.Proofs.LiveReferences
import RequestSuite.Proofs.OptionChanges
import RequestSuite.Proofs.SharedModule
import RequestSuite.Proofs.Reporting
import RequestSuite.Proofs.ScriptComment
import RequestSuite.Proofs.StatusAssertion
import RequestSuite.Proofs.NameTail
import RequestSuite.Proofs.ReturnedExpression
import RequestSuite.Proofs.RegexBody
import RequestSuite.Proofs.FallbackPath
import RequestSuite.Proofs.RebuiltUrl
import RequestSuite.Proofs.RetryDelays
import RequestSuite.Proofs.BodyText
import RequestSuite.Proofs.MemoryHistory
import RequestSuite.Proofs.UsableVariables
import RequestSuite.Proofs.NameStyles
import RequestSuite.Proofs.Rescan
import RequestSuite.Proofs.Skipping
