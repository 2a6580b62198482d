import Letterhead.Branding.Check
import Letterhead.Logo.Cache
import Letterhead.Proofs.Content.Canonical
import Letterhead.Proofs.Content.Substance
import Letterhead.Proofs.Store.Integrity
import Letterhead.Service.Basic
import Letterhead.Proofs.Store.Schema
import Letterhead.Text.Basic
import Letterhead.Proofs.Content.Boundary
import Letterhead.Proofs.Document.Slug
import Letterhead.Proofs.Store.Folder
import Letterhead.Proofs.Service.Address
import Letterhead.Proofs.Markup.Reading
import Letterhead.Proofs.Page.Sheet
import Letterhead.Proofs.Service.Download
import Letterhead.Proofs.Store.Outcome
import Letterhead.Proofs.Store.Undo
import Letterhead.Proofs.Branding.Merge
import Letterhead.Proofs.Document.Agreement
import Letterhead.Proofs.Document.Markdown
import Letterhead.Proofs.Store.Owner
import Letterhead.Proofs.Service.Numbering
import Letterhead.Proofs.Service.Expiry
import Letterhead.Proofs.Page.Running
import Letterhead.Proofs.Logo.Sharing
import Letterhead.Proofs.Service.Creation
import Letterhead.Proofs.Store.Counting
import Letterhead.Proofs.Logo.Failing
import Letterhead.Proofs.Document.Running
import Letterhead.Proofs.Service.Absence
import Letterhead.Proofs.Branding.Forms
import Letterhead.Proofs.Logo.Torn
import Letterhead.Proofs.Branding.Simultaneous
import Letterhead.Proofs.Content.Kept
import Letterhead.Proofs.Content.Literal
import Letterhead.Proofs.Page.Verbatim
import Letterhead.Proofs.Branding.Check
import Letterhead.Proofs.Logo.Box
import Letterhead.Proofs.Logo.Aspect
import Letterhead.Proofs.Content.Trailing
import Letterhead.Proofs.Document.Formats
import Letterhead.Proofs.Branding.Normal
import Letterhead.Proofs.Content.Tidy
