import TenantRag.Foundations.Dict
import TenantRag.Foundations.Machine
import TenantRag.Mappings.Common
import TenantRag.Services.TaskQueueDrain
import TenantRag.Services.TaskQueuePending
import TenantRag.Services.ChatRegistryEffects
import TenantRag.Api.ChatLease
import TenantRag.Api.ChatDiagnostics
import TenantRag.Api.ChatSegments
import TenantRag.Rag.ConversationText
import TenantRag.Foundations.JsonSorted
import TenantRag.Weaviate.ConversationWrite
import TenantRag.Rag.RetrievalOrder
import TenantRag.Rag.ConversationRead
import TenantRag.Rag.RetrievalGuarantees
import TenantRag.Deployment.DeepTrace
import TenantRag.Deployment.CorpusRuns
import TenantRag.Rag.Quarantine
import TenantRag.Weaviate.Hydration
import TenantRag.Providers.LateOn
import TenantRag.Scripts.DecodedCollection
import TenantRag.Wizard.UnionAlignment
import TenantRag.Mappings.DocumentMap
import TenantRag.Mappings.ParagraphMap
import TenantRag.Wizard.SaveEvidence
import TenantRag.Wizard.SaveAtomicity
import TenantRag.Wizard.WizardRuns
import TenantRag.Rag.PromptBudget
import TenantRag.Rag.Selection
import TenantRag.Deployment.Redaction
import TenantRag.Deployment.FixtureUpload
import TenantRag.Providers.QwenBody
import TenantRag.Providers.GraniteRewrite
import TenantRag.Deployment.QueryDataset
import TenantRag.Mappings.ParagraphCalls
import TenantRag.Wizard.DigestFraming
import TenantRag.Scripts.VectorMigrationRuns
import TenantRag.Deployment.ChatDelivery
import TenantRag.Api.WizardReads
import TenantRag.Deployment.ContextHydration
import TenantRag.Foundations.JsonCanonical
import TenantRag.Deployment.EvaluationWorker
