import EventSystemAudit.AuditVerdict
import EventSystemAudit.AuditComplete
import EventSystemAudit.CanonicalCorpus
import EventSystemAudit.AuditAborts
import EventSystemAudit.AuditRerun
import EventSystemAudit.ArrayBodies
import EventSystemAudit.StepOrder
import EventSystemAudit.PhaseOrder
import EventSystemAudit.GoSchema
import EventSystemAudit.EnumGrammar
import EventSystemAudit.GeneratedFiles
import EventSystemAudit.CollectionFiles
import EventSystemAudit.FileNames
import EventSystemAudit.IssueCounts
import EventSystemAudit.UrlTemplate
import EventSystemAudit.CollectionPlan
import EventSystemAudit.GeneratedAudit
import EventSystemAudit.CollectionRerun
