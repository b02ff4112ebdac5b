import SymbolDocs.Catalog.Basic
import SymbolDocs.Files.Tree
import SymbolDocs.Interchange.Listings
import SymbolDocs.Interchange.Settings
import SymbolDocs.Json.Parse
import SymbolDocs.Proofs.Catalog.Listing
import SymbolDocs.Proofs.Catalog.Visited
import SymbolDocs.Proofs.Identifier.Failure
import SymbolDocs.Proofs.Identifier.Forms
import SymbolDocs.Proofs.Identifier.LocalFunction
import SymbolDocs.Proofs.Identifier.Marks
import SymbolDocs.Proofs.Identifier.Numbering
import SymbolDocs.Proofs.Identifier.Qualifier
import SymbolDocs.Proofs.Identifier.Renaming
import SymbolDocs.Proofs.Identifier.Separation
import SymbolDocs.Proofs.Interchange.Members
import SymbolDocs.Proofs.Interchange.RoundTrip
import SymbolDocs.Proofs.Interchange.Types
import SymbolDocs.Proofs.Json.Decoding
import SymbolDocs.Proofs.Json.Literals
import SymbolDocs.Proofs.Json.Reading
import SymbolDocs.Proofs.Markup.Attributes
import SymbolDocs.Proofs.Markup.Bodies
import SymbolDocs.Proofs.Markup.Comments
import SymbolDocs.Proofs.Markup.ParameterNote
import SymbolDocs.Proofs.Markup.Truncation
import SymbolDocs.Proofs.Store.Atomicity
import SymbolDocs.Proofs.Store.Commutation
import SymbolDocs.Proofs.Store.Owners
import SymbolDocs.Proofs.Store.OwnerSource
import SymbolDocs.Proofs.Store.Provenance
import SymbolDocs.Proofs.Store.Repetition
import SymbolDocs.Proofs.Store.Written
import SymbolDocs.Proofs.TypeTerm.Building
import SymbolDocs.Proofs.TypeTerm.Spans
import SymbolDocs.Proofs.Interchange.Presentation
