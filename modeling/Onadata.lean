import Onadata.Proofs.Apps.Main.DeactivationWarnings
import Onadata.Proofs.Apps.Main.PlannedActions
import Onadata.Proofs.Apps.Main.StaleSchedule
import Onadata.Proofs.Apps.Main.DeactivationBrackets
import Onadata.Proofs.Apps.Main.RevokedPermissions
import Onadata.Proofs.Apps.Viewer.MetaPermsConfinement
import Onadata.Proofs.Libs.Utils.Retransmission
import Onadata.Proofs.Libs.Utils.CsvImportRollback
import Onadata.Proofs.Libs.Utils.EntityFold
import Onadata.Proofs.Libs.Utils.CounterLock
import Onadata.Proofs.Libs.Utils.CounterArithmetic
import Onadata.Proofs.Libs.Utils.CsvRoundTrip
import Onadata.Proofs.Apps.Logger.SubmissionParser
import Onadata.Proofs.Libs.ProjectRoles
import Onadata.Proofs.Apps.Logger.RestoreForm
import Onadata.Proofs.Libs.Utils.MediaCompleteness
import Onadata.Proofs.Libs.Utils.DataviewFilters
import Onadata.Proofs.Apps.Logger.SubmissionCount
import Onadata.Proofs.Libs.Utils.ConcurrentEdits
import Onadata.Proofs.Libs.Utils.JoinedTables
import Onadata.Proofs.Apps.Logger.EntityCount
import Onadata.Proofs.Apps.Logger.DecryptedCount
import Onadata.Proofs.Apps.Logger.ProjectDates
import Onadata.Proofs.Apps.Logger.DailyCount
import Onadata.Proofs.Apps.Viewer.QueryLanguage
import Onadata.Proofs.Libs.Serializers.MergedForms
import Onadata.Proofs.Libs.Models.ShareTeamProject
import Onadata.Proofs.Apps.SmsSupport.MessageBatch
import Onadata.Proofs.Apps.SmsSupport.AnswersReadBack
import Onadata.Proofs.Libs.Kms.VersionKeys
import Onadata.Proofs.Apps.Api.OrganizationRemoval
import Onadata.Proofs.Apps.Api.LastOwner
import Onadata.Proofs.Apps.Api.FormListCache
import Onadata.Proofs.Apps.Api.OrganizationCache
import Onadata.Proofs.Libs.Renderers.CachedManifest
import Onadata.Proofs.Libs.AttachmentConfinement
import Onadata.Proofs.Apps.Viewer.VersionHistory
import Onadata.Proofs.Libs.Utils.ExportFreshness
import Onadata.Proofs.Apps.Viewer.EntityLinks
import Onadata.Proofs.Libs.Utils.JsonSubmission
import Onadata.Proofs.Apps.Api.DeletingSubmissions
import Onadata.Proofs.Libs.Utils.BulkDeletion
import Onadata.Proofs.Libs.Kms.DecryptAtomic
import Onadata.Proofs.Libs.Utils.BriefcasePull
import Onadata.Proofs.Apps.Api.TableauJoin
import Onadata.Proofs.Apps.Api.OpenDataSchema
import Onadata.Proofs.Apps.Viewer.Placeholders
import Onadata.Proofs.Apps.Viewer.SortOrder
import Onadata.Proofs.Libs.Utils.EntityDryRun
import Onadata.Proofs.Apps.Logger.SaveTo
import Onadata.Proofs.Apps.Logger.EntityIsolation
import Onadata.Proofs.Libs.Utils.RowReading
import Onadata.Proofs.Libs.Utils.ArrangedColumns
import Onadata.Proofs.Libs.Utils.ColumnOrder
import Onadata.Proofs.Libs.Utils.ConflictingColumns
import Onadata.Proofs.Apps.Logger.DataViewMembership
import Onadata.Proofs.Libs.Utils.SpssNames
import Onadata.Proofs.Apps.Logger.NumericConverter
import Onadata.Lib.PercentEncoding
import Onadata.Libs.Utils.ContentDisposition
import Onadata.Proofs.Libs.Utils.HeaderReader
import Onadata.Proofs.Libs.Utils.ContentDisposition
import Onadata.Lib.Utf8Decoder
import Onadata.Lib.CsvReader
import Onadata.Libs.Utils.UploadValidation
import Onadata.Proofs.Libs.Utils.UploadValidation
import Onadata.Libs.Utils.SelectMultiples
import Onadata.Proofs.Libs.Utils.SelectMultiples
import Onadata.Proofs.Libs.Utils.ValueMode
import Onadata.Proofs.Libs.Utils.ChoiceLabels
import Onadata.Proofs.Apps.SmsSupport.AcceptedTexts
import Onadata.Proofs.Libs.Utils.SheetNames
import Onadata.Proofs.Apps.Logger.IdStrings
import Onadata.Proofs.Libs.Utils.ContinuedFilename
import Onadata.Proofs.Apps.Main.BackfillRuns
import Onadata.Proofs.Libs.FailedLogins
import Onadata.Proofs.Apps.Api.PageWalk
import Onadata.Proofs.Apps.Viewer.ExportFiles
import Onadata.Proofs.Libs.Utils.ExportFilenames
import Onadata.Proofs.Libs.Kms.KeyCustody
