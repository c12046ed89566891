import IdentityAuthority.Relational.Table
import IdentityAuthority.Relational.Transaction
import IdentityAuthority.Transition.Run
import IdentityAuthority.Limits.FixedWindow
import IdentityAuthority.Core.Account
import IdentityAuthority.Core.Session
import IdentityAuthority.Relational.Statement
import IdentityAuthority.Storage.PasswordAttempts
import IdentityAuthority.Core.Facts
import IdentityAuthority.Core.Department
import IdentityAuthority.Json.Unique
import IdentityAuthority.Json.Codec
import IdentityAuthority.Core.Profile
import IdentityAuthority.Core.Federation
import IdentityAuthority.Storage.FactsCodec
import IdentityAuthority.Protocols.FactsLifecycle
import IdentityAuthority.Storage.Accounts
import IdentityAuthority.Protocols.PasswordClaims
import IdentityAuthority.Protocols.Admission
import IdentityAuthority.Protocols.Lockout
import IdentityAuthority.Storage.Federation
import IdentityAuthority.Storage.Sessions
import IdentityAuthority.Storage.Management
import IdentityAuthority.Storage.Profiles
import IdentityAuthority.Storage.StepUp
import IdentityAuthority.Storage.LinkIntents
import IdentityAuthority.Operations.Webauthn
import IdentityAuthority.Operations.Federation
import IdentityAuthority.Operations.Link
import IdentityAuthority.Operations.Sessions
import IdentityAuthority.Operations.Accounts
import IdentityAuthority.Operations.Providers
import IdentityAuthority.Operations.Platform
import IdentityAuthority.Operations.Profiles
import IdentityAuthority.Relational.Rewrite
import IdentityAuthority.Storage.Effects
import IdentityAuthority.Storage.Footprints
import IdentityAuthority.Operations.Footprints
import IdentityAuthority.Operations.ProtocolFootprints
import IdentityAuthority.System
import IdentityAuthority.Safety.Continuity
import IdentityAuthority.Safety.SessionDeath
import IdentityAuthority.Safety.Credentials
import IdentityAuthority.Safety.Providers
import IdentityAuthority.Safety.Subjects
import IdentityAuthority.Safety.Management
import IdentityAuthority.Relational.Truth
import IdentityAuthority.Relational.Seek
import IdentityAuthority.Core.Identifiers
import IdentityAuthority.Parsing.Reading
import IdentityAuthority.Core.Filter
import IdentityAuthority.Core.FilterGrammar
import IdentityAuthority.Core.FilterReading
import IdentityAuthority.Core.FilterAcceptance
import IdentityAuthority.Core.Directory
import IdentityAuthority.Relational.Condition
import IdentityAuthority.Relational.Recursion
import IdentityAuthority.Graphs.Walk
import IdentityAuthority.Core.DepartmentTree
import IdentityAuthority.Core.FilterRules
import IdentityAuthority.Storage.DirectoryFilter
import IdentityAuthority.Safety.FilterMeaning
import IdentityAuthority.Safety.FilterContains
import IdentityAuthority.Safety.LocalProfiles
import IdentityAuthority.Operations.ProfileReads
import IdentityAuthority.Safety.Observations
import IdentityAuthority.Safety.PlatformChallenges
import IdentityAuthority.Storage.Deadlines
import IdentityAuthority.Safety.Usability
import IdentityAuthority.Json.Shape
import IdentityAuthority.Core.ProfileBounds
import IdentityAuthority.Safety.Lifetimes
import IdentityAuthority.Storage.Expiry
import IdentityAuthority.Safety.Expiry
import IdentityAuthority.Encoding.Base64Url
import IdentityAuthority.Encoding.Bytes
import IdentityAuthority.Core.Outcome
import IdentityAuthority.Core.StateToken
import IdentityAuthority.Storage.Credentials
import IdentityAuthority.Safety.CredentialStorage
import IdentityAuthority.Safety.KeyRotation
import IdentityAuthority.Audit.Events
import IdentityAuthority.Audit.Settlement
import IdentityAuthority.Audit.Reports
import IdentityAuthority.Safety.Reconciliation
import IdentityAuthority.Relational.Reporting
import IdentityAuthority.Audit.Mapping
import IdentityAuthority.Safety.Auditing
import IdentityAuthority.Safety.Descent
import IdentityAuthority.Safety.Attempts
import IdentityAuthority.Safety.SingleUse
import IdentityAuthority.Safety.Generations
import IdentityAuthority.Networks.Blocks
import IdentityAuthority.Oidc.Egress
import IdentityAuthority.Safety.Egress
import IdentityAuthority.Oidc.Assurance
import IdentityAuthority.Safety.StepUp
import IdentityAuthority.Parsing.Fields
import IdentityAuthority.Http.Presentation
import IdentityAuthority.Safety.Presentation
import IdentityAuthority.Transition.Replay
import IdentityAuthority.Concurrency.PasswordKdf
import IdentityAuthority.Safety.PasswordWork
import IdentityAuthority.Oidc.KeyCache
import IdentityAuthority.Safety.KeyCache
import IdentityAuthority.Json.Records
import IdentityAuthority.Core.SettingsDocument
import IdentityAuthority.Http.ProviderDto
import IdentityAuthority.Safety.Settings
import IdentityAuthority.Relational.Recovery
import IdentityAuthority.Relational.Cursor
import IdentityAuthority.Operations.SessionListing
import IdentityAuthority.Safety.SessionListing
import IdentityAuthority.Relational.Join
import IdentityAuthority.Operations.PersonnelRelations
import IdentityAuthority.Operations.Personnel
import IdentityAuthority.Safety.Personnel
import IdentityAuthority.Safety.CurrentSessions
import IdentityAuthority.Operations.AccountRows
import IdentityAuthority.Operations.AccountDirectory
import IdentityAuthority.Relational.Boundary
import IdentityAuthority.Safety.Windows
import IdentityAuthority.Operations.AccountCursors
import IdentityAuthority.Safety.AccountPages
import IdentityAuthority.Safety.CursorsAccepted
import IdentityAuthority.Safety.ProfileAgreement
import IdentityAuthority.Relational.Agreement
import IdentityAuthority.Safety.DirectoryBlindness
import IdentityAuthority.Operations.Ceremonies
import IdentityAuthority.Safety.Ceremonies
import IdentityAuthority.Safety.Grants
import IdentityAuthority.Safety.Linking
