import BlockStage.Main
import BlockStage.Rehearsal
import BlockStage.Store.Memory
import BlockStage.Proofs.RunLoop
import BlockStage.Proofs.RunWalk
import BlockStage.Proofs.RunDisplay
import BlockStage.Proofs.RunFrames
import BlockStage.Proofs.RunVocabulary
import BlockStage.Proofs.LoopFreeRun
import BlockStage.Proofs.ExecutedAssignments
import BlockStage.Proofs.DriveLog
import BlockStage.Proofs.UnpacedDrive
import BlockStage.Proofs.ClosedOutput
import BlockStage.Proofs.TerminalLines
import BlockStage.Proofs.SleepPairs
import BlockStage.Proofs.IdentifierSupply
import BlockStage.Proofs.IdentifierSearch
import BlockStage.Proofs.Binary64Rounding
import BlockStage.Proofs.FloatBits
import BlockStage.Proofs.FloatKinds
import BlockStage.Proofs.ExactValue
import BlockStage.Proofs.RoundedPause
import BlockStage.Proofs.ShortestDecimal
import BlockStage.Proofs.NumberText
import BlockStage.Proofs.FiniteNumbers
import BlockStage.Proofs.SpelledNumber
import BlockStage.Proofs.TokenLayout
import BlockStage.Proofs.DocumentTokens
import BlockStage.Proofs.ReaderLaws
import BlockStage.Proofs.CutText
import BlockStage.Proofs.NodeContents
import BlockStage.Proofs.ProgramRoundTrip
import BlockStage.Proofs.CutReader
import BlockStage.Proofs.CutProgram
import BlockStage.Proofs.HostPrograms
import BlockStage.Proofs.ReadPrograms
import BlockStage.Proofs.SnapshotText
import BlockStage.Proofs.ByteOrder
import BlockStage.Proofs.RecordValues
import BlockStage.Proofs.EntrySearch
import BlockStage.Proofs.SimpleCommands
import BlockStage.Proofs.RowLaws
import BlockStage.Proofs.ServedRows
import BlockStage.Proofs.RowList
import BlockStage.Proofs.StoreAgreement
import BlockStage.Proofs.ReservedIdentifiers
import BlockStage.Proofs.EditOutcome
import BlockStage.Proofs.EditSession
import BlockStage.Proofs.ProgramPlaces
import BlockStage.Proofs.StatementForest
import BlockStage.Proofs.ForestWalks
import BlockStage.Proofs.ExpressionForest
import BlockStage.Proofs.AddedStatement
import BlockStage.Proofs.FilledExpression
import BlockStage.Proofs.LocalEdits
import BlockStage.Proofs.EditPersistence
import BlockStage.Proofs.StorablePrograms
import BlockStage.Proofs.StoreHistory
import BlockStage.Proofs.SavedRows
import BlockStage.Proofs.CommandRows
import BlockStage.Proofs.ExpressionTree
import BlockStage.Proofs.UnfoldedExpression
import BlockStage.Proofs.UnfoldedOutline
import BlockStage.Proofs.OutlineInPlace
import BlockStage.Proofs.AcyclicExpression
import BlockStage.Proofs.ProgramParts
import BlockStage.Proofs.ReachableRun
import BlockStage.Proofs.ShownNumber
import BlockStage.Proofs.ShownExpression
import BlockStage.Proofs.TextLines
