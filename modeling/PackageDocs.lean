import PackageDocs.Main
import PackageDocs.Session.Run
import PackageDocs.Proofs.Signature.Punctuation
import PackageDocs.Proofs.Signature.Cuts
import PackageDocs.Proofs.Signature.Operations
import PackageDocs.Proofs.Entry.Grouping
import PackageDocs.Proofs.Entry.Rendering
import PackageDocs.Proofs.Package.Absence
import PackageDocs.Proofs.Package.Acceptance
import PackageDocs.Proofs.Package.Faults
import PackageDocs.Proofs.Package.Loading
import PackageDocs.Proofs.Page.Agreement
import PackageDocs.Proofs.Page.Links
import PackageDocs.Proofs.Session.Modules
import PackageDocs.Proofs.Page.Listings
import PackageDocs.Proofs.Page.Prose
import PackageDocs.Proofs.Signature.Records
import PackageDocs.Proofs.Signature.Fields
import PackageDocs.Proofs.Signature.Joins
import PackageDocs.Proofs.Entry.Stacking
import PackageDocs.Proofs.Page.Faults
import PackageDocs.Proofs.Page.Runs
import PackageDocs.Proofs.Signature.Segments
import PackageDocs.Proofs.Entry.Records
import PackageDocs.Proofs.Signature.Excess
import PackageDocs.Proofs.Signature.Normalization
import PackageDocs.Proofs.Entry.Breaks
import PackageDocs.Proofs.Session.Endings
