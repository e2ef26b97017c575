import DoxygenRest.Xml.Document
import DoxygenRest.Xml.Writer
import DoxygenRest.Tree.WellFormed
import DoxygenRest.Query.Writer
import DoxygenRest.Document
import DoxygenRest.Files.Memory
import DoxygenRest.Index.Directory
import DoxygenRest.Main
import DoxygenRest.Proofs.Tree.Representation
import DoxygenRest.Proofs.Tree.FailedEdits
import DoxygenRest.Proofs.Tree.Placement
import DoxygenRest.Proofs.Cursor.TextConservation
import DoxygenRest.Proofs.Cursor.ElementConservation
import DoxygenRest.Proofs.Cursor.Outside
import DoxygenRest.Proofs.Cursor.DocumentOrder
import DoxygenRest.Proofs.Cursor.Rejoining
import DoxygenRest.Proofs.Adjust.Idempotence
import DoxygenRest.Proofs.Adjust.NormalForm
import DoxygenRest.Proofs.Adjust.Termination
import DoxygenRest.Proofs.Adjust.TextConservation
import DoxygenRest.Proofs.Adjust.Attribution
import DoxygenRest.Proofs.Adjust.SectionTitles
import DoxygenRest.Proofs.Adjust.Refusal
import DoxygenRest.Proofs.Adjust.Outside
import DoxygenRest.Proofs.Adjust.Composition
import DoxygenRest.Proofs.Adjust.Presentation
import DoxygenRest.Proofs.Xml.Roundtrip
import DoxygenRest.Proofs.Xml.WrittenForm
import DoxygenRest.Proofs.Xml.MixedContent
import DoxygenRest.Proofs.Xml.Restripping
import DoxygenRest.Proofs.Rest.Shown
import DoxygenRest.Proofs.Rest.Independence
import DoxygenRest.Proofs.Rest.Containment
import DoxygenRest.Proofs.Rest.Separation
import DoxygenRest.Proofs.Rest.Conversion
import DoxygenRest.Proofs.Rest.Closing
import DoxygenRest.Proofs.Rest.Indentation
import DoxygenRest.Proofs.Query.Selection
import DoxygenRest.Proofs.Acceptance
import DoxygenRest.Proofs.Xml.Balance
import DoxygenRest.Proofs.Index
import DoxygenRest.Proofs.Adjust.Scopes
