import Odudu.Kernel.ModuleRegistry
import Odudu.ProtocolOidc.SingleUse
import Odudu.ProtocolOidc.SignInTurns
import Odudu.AuthnFlows.SecondFactor
import Odudu.ProtocolOidc.SessionLiveness
import Odudu.ProtocolOidc.RefusedRefresh
import Odudu.ProtocolAdmin.OncePerKey
import Odudu.Account.LinkRetirement
import Odudu.ProtocolOidc.OnceAccepted
import Odudu.Outbox.OneSender
import Odudu.Mcp.LivenessDoors
import Odudu.ProtocolAdmin.RecentListings
import Odudu.ProtocolOidc.GuardedAddresses
import Odudu.ProtocolOidc.RegisteredMethod
import Odudu.ProtocolOidc.AgentWriteRuns
import Odudu.DomainIdentity.FailureRuns
import Odudu.DomainTheme.FreshRuns
import Odudu.Mcp.Sanitize
import Odudu.ProtocolOidc.AdmittedSessions
import Odudu.ProtocolAdmin.CapabilityCeiling
import Odudu.AuthnFlows.FreshFactors
import Odudu.ProtocolOidc.OwedShrinks
import Odudu.Account.AnonymousRequests
import Odudu.ProtocolAdmin.SafeReplacements
import Odudu.ProtocolOidc.RestartRoundTrip
import Odudu.AuthnFlows.LiveCondition
import Odudu.AuthnFlows.NextSteps
import Odudu.DomainIdentity.Lockouts
import Odudu.ProtocolOidc.LogoutRuns
import Odudu.I18n.Overrides
import Odudu.AuthnFlows.PasswordHistory
import Odudu.ProtocolAdmin.ImportedSettings
import Odudu.DomainTenant.IssuerContinuity
import Odudu.DomainTheme.ShownParts
import Odudu.Server.ThrottleRuns
import Odudu.ProtocolOidc.CimdFetchLimiter
import Odudu.Mcp.ToolLimiterBursts
import Odudu.ProtocolOidc.ActChains
import Odudu.ProtocolAdmin.PrefixPages
import Odudu.Mcp.FileLock
import Odudu.Mcp.RefreshReplays
import Odudu.Mcp.WriteBudgetRuns
import Odudu.Crypto.Base32
import Odudu.ProtocolAdmin.GroupPaths
import Odudu.ProtocolOidc.DoorGates
import Odudu.ConsoleGateway.Refreshes
