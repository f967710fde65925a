import PageTemplates.Encode
import PageTemplates.Project
import PageTemplates.Proofs.History
import PageTemplates.Proofs.Bodies
import PageTemplates.Proofs.FontFaces
import PageTemplates.Proofs.Fragments
import PageTemplates.Proofs.Rereading
import PageTemplates.Proofs.Markup
import PageTemplates.Proofs.Draining
import PageTemplates.Proofs.Programs
import PageTemplates.Proofs.MovedImports
import PageTemplates.Proofs.Lints
import PageTemplates.Proofs.Integrity
import PageTemplates.Proofs.Failures
import PageTemplates.Proofs.Directives
import PageTemplates.Proofs.Hosts
import PageTemplates.Proofs.Retargeting
import PageTemplates.Proofs.Comments
import PageTemplates.Proofs.QuotedReferences
import PageTemplates.Proofs.ImportScopes
import PageTemplates.Proofs.Spellings
import PageTemplates.Proofs.ReadMarkup
import PageTemplates.Proofs.Preorder
import PageTemplates.Proofs.AttributeValues
import PageTemplates.Proofs.BodyStructure
import PageTemplates.Proofs.Origins
import PageTemplates.Proofs.FaultOffsets
import PageTemplates.Proofs.FoldedStyles
import PageTemplates.Proofs.Queries
import PageTemplates.Proofs.SiteRoots
import PageTemplates.Proofs.BlankExpressions
import PageTemplates.Proofs.TextElements
import PageTemplates.Proofs.NestedRules
