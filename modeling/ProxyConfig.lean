import ProxyConfig.Files.Tree
import ProxyConfig.Main
import ProxyConfig.Server
import ProxyConfig.Proofs.Actor.Cursor
import ProxyConfig.Proofs.Actor.ReadBack
import ProxyConfig.Proofs.Actor.References
import ProxyConfig.Proofs.Validation.Integrity
import ProxyConfig.Proofs.Validation.Rename
import ProxyConfig.Proofs.Validation.UsableNames
import ProxyConfig.Proofs.Partition
import ProxyConfig.Proofs.Diagnostic
import ProxyConfig.Proofs.LineEnds
import ProxyConfig.Proofs.Client.Encoding
import ProxyConfig.Proofs.Validation.Codes
import ProxyConfig.Proofs.Validation.Lookups
import ProxyConfig.Proofs.Client.Ranges
import ProxyConfig.Proofs.CursorLine
import ProxyConfig.Proofs.Hover.Endpoints
import ProxyConfig.Proofs.Hover.References
import ProxyConfig.Proofs.Completion.Actors
import ProxyConfig.Proofs.Outline
import ProxyConfig.Proofs.Outline.Nesting
import ProxyConfig.Proofs.Outline.Actors
import ProxyConfig.Proofs.Client.Queries
import ProxyConfig.Proofs.Client.Rename
import ProxyConfig.Proofs.Validation.Grammar
import ProxyConfig.Proofs.Validation.Finals
import ProxyConfig.Proofs.Validation.PropertyAccounts
import ProxyConfig.Proofs.Validation.HeaderTails
import ProxyConfig.Proofs.Validation.RuleGrammar
import ProxyConfig.Proofs.Validation.SettingGrammar
import ProxyConfig.Proofs.Validation.NameConflicts
import ProxyConfig.Proofs.Validation.Places
import ProxyConfig.Proofs.Validation.InDocument
import ProxyConfig.Proofs.Moved
import ProxyConfig.Proofs.Validation.Moved
import ProxyConfig.Proofs.Validation.InertLines
import ProxyConfig.Proofs.Validation.SplitSection
import ProxyConfig.Proofs.Validation.LocalErrors
import ProxyConfig.Proofs.Server.Documents
import ProxyConfig.Proofs.Server.Publications
import ProxyConfig.Proofs.Session.Interleaving
import ProxyConfig.Proofs.Session.Serializable
import ProxyConfig.Proofs.Indices
