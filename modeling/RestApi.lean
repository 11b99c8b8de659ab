import RestApi.StreamLoss
import RestApi.StreamOnce
import RestApi.StreamShutdown
import RestApi.StreamRetries
import RestApi.Credentials
import RestApi.UserWrites
import RestApi.PageWalk
import RestApi.Upload
import RestApi.EmailedTokens
import RestApi.Invitations
import RestApi.RefreshTokens
import RestApi.UserDeletion
import RestApi.Deadlocks
import RestApi.ClosedSessions
import RestApi.ProfilePictures
import RestApi.PlainUser
import RestApi.AuditSearch
import RestApi.Nullable
import RestApi.Passwords
import RestApi.Columns
import RestApi.Logging
import RestApi.Discipline
import RestApi.RecoveryThrottle
import RestApi.Accounts
import RestApi.TokenOrigins
import RestApi.AuditTrail
import RestApi.FailClosed
import RestApi.PasswordOrigins
import RestApi.StreamFormat
import RestApi.ErrorResponses
import RestApi.Handlers
import RestApi.Server
import RestApi.ServerAccess
import RestApi.ServerErrors
import RestApi.WriteAuthority
