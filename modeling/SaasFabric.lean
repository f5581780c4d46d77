import SaasFabric.Library.Kleene
import SaasFabric.Library.Machine
import SaasFabric.Library.Collect
import SaasFabric.Library.Fallible
import SaasFabric.Library.Grouping
import SaasFabric.Library.Codec
import SaasFabric.Library.SampledCodec
import SaasFabric.Library.Floor
import SaasFabric.Library.Revisions
import SaasFabric.Core.Debug
import SaasFabric.Core.Identifier
import SaasFabric.Core.Value
import SaasFabric.Connector.Filter
import SaasFabric.Connector.Execution
import SaasFabric.Connector.TenantScoping
import SaasFabric.Ndc.Wire
import SaasFabric.Ndc.SchemaIndex
import SaasFabric.Ndc.Expression
import SaasFabric.Ndc.FilterTranslation
import SaasFabric.Ndc.Config
import SaasFabric.Ndc.Registration
import SaasFabric.Ndc.Mutation
import SaasFabric.Ndc.MutationCall
import SaasFabric.Runtime.Resource
import SaasFabric.Runtime.DataSource
import SaasFabric.Runtime.Tenant
import SaasFabric.Runtime.Resolution
import SaasFabric.Runtime.Registry
import SaasFabric.Runtime.Merge
import SaasFabric.Runtime.RegistryHistory
import SaasFabric.Runtime.TakesWhole
import SaasFabric.Reader.Install
import SaasFabric.Reader.Generation
import SaasFabric.Reader.LastKnownGood
import SaasFabric.Reader.PublishedFiles
import SaasFabric.Reader.History
import SaasFabric.Publication.Document
import SaasFabric.Publication.Registry
import SaasFabric.Publication.Record
import SaasFabric.Publication.Validate
import SaasFabric.Publication.Revisions
import SaasFabric.Publication.Plan
import SaasFabric.Publication.Target
import SaasFabric.Publication.Planned
import SaasFabric.Publication.Resume
import SaasFabric.Publication.Attempts
import SaasFabric.Publication.Sampled
import SaasFabric.Publication.Replan
import SaasFabric.Publication.Reregistered
import SaasFabric.Publication.Interrupted
import SaasFabric.Publication.Commits
import SaasFabric.Publication.DocumentBytes
import SaasFabric.Publication.Divergence
import SaasFabric.Publication.RegistryStamps
import SaasFabric.Publication.Diagnosis
import SaasFabric.Publication.Serving
import SaasFabric.Platform.Passes
import SaasFabric.Library.Interleaved
import SaasFabric.Platform.Errors
import SaasFabric.Platform.DataSources
import SaasFabric.Platform.Placements
import SaasFabric.Platform.Select
import SaasFabric.Platform.Environment
import SaasFabric.Platform.Coherence
import SaasFabric.Library.Weighted
import SaasFabric.Platform.Snapshot
import SaasFabric.Platform.Composition
import SaasFabric.Library.Sorted
import SaasFabric.Platform.Placing
import SaasFabric.Platform.Enforceable
import SaasFabric.Library.Json
import SaasFabric.Publication.Inspection
import SaasFabric.Library.Distinct
import SaasFabric.Library.Userset
import SaasFabric.ClientModel.Errors
import SaasFabric.ClientModel.Authorization
import SaasFabric.Fga.Model
import SaasFabric.Fga.Grants
import SaasFabric.Library.Permuted
import SaasFabric.Fga.Reordered
import SaasFabric.Connector.Errors
import SaasFabric.Core.Text
import SaasFabric.Identity.Resolver
import SaasFabric.DataApi.Catalog
import SaasFabric.DataApi.Authorization
import SaasFabric.DataApi.ListQuery
import SaasFabric.DataApi.Service
import SaasFabric.DataApi.Disclosure
import SaasFabric.DataApi.Naming
import SaasFabric.DataApi.SharedTable
import SaasFabric.DataApi.Concealment
import SaasFabric.Library.Program
import SaasFabric.PlatformGit.Host
import SaasFabric.PlatformGit.Requests
import SaasFabric.PlatformGit.Atomic
import SaasFabric.Platform.DesiredState
import SaasFabric.PlatformGit.Components
import SaasFabric.PlatformGit.Overlay
import SaasFabric.PlatformGit.Argo
import SaasFabric.PlatformGit.Desired
import SaasFabric.PlatformGit.EnvironmentFiles
import SaasFabric.PlatformGit.Reading
import SaasFabric.PlatformGit.Writes
import SaasFabric.Library.Blocks
import SaasFabric.PlatformGit.Repinned
import SaasFabric.Ndc.KeyValue
import SaasFabric.FgaAuth.KeyCache
import SaasFabric.FgaAuth.Evidence
import SaasFabric.Library.JsonText
import SaasFabric.ClientModel.Ids
import SaasFabric.ControlPlane.AuditRecord
import SaasFabric.ControlPlane.AuditEntry
import SaasFabric.ControlPlane.AuditChain
import SaasFabric.Library.Process
import SaasFabric.Library.FormUrlencoded
import SaasFabric.Core.Utf8
import SaasFabric.Registry.Url
import SaasFabric.Registry.Challenge
import SaasFabric.Registry.Client
import SaasFabric.Registry.Exchange
import SaasFabric.Registry.Presenting
import SaasFabric.Registry.Exchanging
import SaasFabric.Registry.Carried
import SaasFabric.Registry.Refused
import SaasFabric.Kubernetes.Object
import SaasFabric.Kubernetes.Publish
import SaasFabric.Kubernetes.Version
import SaasFabric.Kubernetes.Succession
import SaasFabric.Kubernetes.Overlapping
import SaasFabric.Kubernetes.Alone
import SaasFabric.Kubernetes.Files
import SaasFabric.Kubernetes.WhatGoesBack
import SaasFabric.Kubernetes.SamePublication
import SaasFabric.Kubernetes.Sampled
import SaasFabric.Kubernetes.Publishers
import SaasFabric.ClientModel.Lifecycle
import SaasFabric.ClientModel.LifecycleHistory
import SaasFabric.Runtime.FullSync
import SaasFabric.Platform.Declaring
import SaasFabric.DataApi.QueryString
import SaasFabric.DataApi.Paging
import SaasFabric.Library.SemVer
import SaasFabric.Platform.Version
import SaasFabric.Platform.Together
import SaasFabric.Platform.Described
import SaasFabric.Platform.Asked
import SaasFabric.ClientModel.IpLiteral
import SaasFabric.ClientModel.RedirectUri
import SaasFabric.ClientModel.RedirectStrategy
import SaasFabric.ClientModel.PublicHost
import SaasFabric.ClientModel.Hostname
import SaasFabric.Library.Yaml
import SaasFabric.Library.TextCodec
import SaasFabric.Library.Upsert
import SaasFabric.ClientModel.Identity
import SaasFabric.ClientModel.IdentitySection
import SaasFabric.ClientModel.Document
import SaasFabric.ClientModel.Edits
import SaasFabric.ClientModel.Projection
import SaasFabric.Publication.Restore
import SaasFabric.Publication.Restored
import SaasFabric.Library.Fifo
import SaasFabric.Registry.Verified
import SaasFabric.Registry.ChallengeSyntax
import SaasFabric.Registry.ChallengeReading
import SaasFabric.Registry.Link
import SaasFabric.Registry.LinkSyntax
import SaasFabric.Registry.Tags
import SaasFabric.Registry.TagsListed
import SaasFabric.Library.Words
import SaasFabric.Platform.Diagnostic
import SaasFabric.Platform.Redacted
import SaasFabric.Platform.Resanitised
import SaasFabric.Platform.Settled
import SaasFabric.PlatformGit.Images
import SaasFabric.PlatformGit.ImageMoved
import SaasFabric.PlatformGit.ImagePinned
import SaasFabric.PlatformGit.ArgoLines
import SaasFabric.PlatformGit.Retargeted
import SaasFabric.PlatformGit.Released
