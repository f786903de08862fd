import Cinder.Programs.SerialRuns
import Cinder.Quizzes.QuizRecords
import Cinder.Quizzes.QuizLoading
import Cinder.Quizzes.QuizHandlers
import Cinder.Quizzes.QuizSaving
import Cinder.Quizzes.QuizEffects
import Cinder.Quizzes.QuizRelease
import Cinder.Quizzes.QuizFreezing
import Cinder.Quizzes.QuizLedger
import Cinder.Quizzes.QuizScore
import Cinder.Quizzes.QuizScoreRuns
import Cinder.Storage.MaskedRows
import Cinder.Quizzes.QuizView
import Cinder.Quizzes.QuizSecrecy
import Cinder.Accounts.AccountEffects
import Cinder.Accounts.DisabledAccounts
import Cinder.Accounts.LoginLockout
import Cinder.Accounts.OldSessions
import Cinder.Accounts.ResetAccess
import Cinder.Accounts.IssuedPins
import Cinder.Classrooms.OwnedClassrooms
import Cinder.Submissions.GradedWork
import Cinder.Submissions.ShownGrades
import Cinder.Submissions.VersionHistory
import Cinder.Submissions.GradeHistory
import Cinder.Submissions.GradeBounds
import Cinder.Notes.NoteConflicts
import Cinder.Forge.QueuedWork
import Cinder.Materials.KeptBlobs
import Cinder.Materials.WholeBlobs
import Cinder.Backups.ArchivableData
import Cinder.Secrets.SecretRuns
import Cinder.HostApp.FailedSettings
import Cinder.HostApp.ExclusiveMaintenance
import Cinder.Pins.TrustOnFirstUse
import Cinder.Quizzes.PublishedVersions
import Cinder.Classrooms.StudentWrites
import Cinder.Library.NodeContents
import Cinder.Library.FolderForest
import Cinder.Library.ListedNodes
import Cinder.HostClient.SentRequests
import Cinder.LiveSessions.SessionChanges
import Cinder.LiveSessions.SessionLifecycle
import Cinder.LiveSessions.TaskLogs
import Cinder.Lessons.QuizDeadlines
import Cinder.Forge.QuizRunner
import Cinder.Forge.SavedAnswers
import Cinder.Forge.SessionStorage
import Cinder.Forge.SessionGate
import Cinder.HostApp.BackupKeyWraps
import Cinder.HostClient.FramedMessages
import Cinder.Backups.SchoolRestore
import Cinder.Backups.SwappedFolders
import Cinder.Programs.MoveRuns
import Cinder.Secrets.HostIdentity
import Cinder.Secrets.IdentityRuns
import Cinder.Storage.SelectedRows
import Cinder.Upgrades.LegacyDatabase
import Cinder.Upgrades.SchemaMigrations
import Cinder.Upgrades.SchoolOwnership
import Cinder.HostClient.LocalNetwork
import Cinder.Papers.AiUsage
import Cinder.Papers.MovedPapers
import Cinder.Library.NodePositions
import Cinder.Materials.ByteRanges
import Cinder.Papers.AiAllowance
import Cinder.Lessons.ReopenedAttempts
import Cinder.Quizzes.PublishableDrafts
import Cinder.Storage.RankedSamples
import Cinder.Quizzes.QuizStatistics
import Cinder.Library.WordQueries
import Cinder.Papers.PaperOwners
import Cinder.Papers.AiAddresses
import Cinder.Accounts.SignInNames
import Cinder.Materials.MaterialNames
import Cinder.Host.AuthLimiter
import Cinder.Teacher.AssistantGrades
import Cinder.Teacher.GradebookSheets
import Cinder.Teacher.HostPolicies
import Cinder.Reviews.ReviewScheduler
import Cinder.Attendance.SeparateRegisters
import Cinder.Backups.PrunedBackups
import Cinder.Ecma.JsonTexts
import Cinder.Worksheets.PageBounds
import Cinder.Worksheets.PaperPages
import Cinder.Worksheets.WellFormedPapers
import Cinder.Worksheets.LegacyPapers
import Cinder.Worksheets.SplicedDiagrams
import Cinder.Ecma.JsonParsing
import Cinder.Worksheets.JsonRepair
import Cinder.Worksheets.PaperResponses
import Cinder.Worksheets.TruncatedPapers
import Cinder.Papers.JsonReplies
import Cinder.Host.StoredTimes
import Cinder.Forge.AccountScopes
import Cinder.Worksheets.PageRanges
import Cinder.Worksheets.CleanedTexts
import Cinder.Upgrades.MovedAppData
import Cinder.Forge.Workspaces
import Cinder.Forge.ClearedWorkspaces
import Cinder.Forge.Countdown
import Cinder.Streams.QuotedTables
import Cinder.Teacher.ExportedGradebooks
import Cinder.Streams.MarkupTexts
import Cinder.Worksheets.ExportedPapers
