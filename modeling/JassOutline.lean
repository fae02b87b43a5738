import JassOutline.Declaration.Doc
import JassOutline.Main
import JassOutline.Proofs.List
import JassOutline.Proofs.Outline.Arrival
import JassOutline.Proofs.Outline.Content
import JassOutline.Proofs.Outline.Conservation
import JassOutline.Proofs.Outline.Diagnostics
import JassOutline.Proofs.Outline.Formation
import JassOutline.Proofs.Outline.WellFormed
import JassOutline.Proofs.Token.Label
import JassOutline.Proofs.Token.Spelling
import JassOutline.Proofs.Writing.Bare
import JassOutline.Proofs.Writing.Construct
import JassOutline.Proofs.Writing.Passage
import JassOutline.Proofs.Writing.Plain
import JassOutline.Proofs.Writing.RoundTrip
import JassOutline.Proofs.Zinc.RoundTrip
import JassOutline.Proofs.Expansion.Machine
import JassOutline.Proofs.Expansion.Limit
import JassOutline.Proofs.BlockComment.Reading
import JassOutline.Proofs.Place.PhysicalLine
import JassOutline.Proofs.Place.Document
import JassOutline.Proofs.BlockComment.Rereading
import JassOutline.Proofs.Token.Extent
import JassOutline.Proofs.Token.Lockstep
import JassOutline.Proofs.Token.Agreement
import JassOutline.Proofs.Token.Boundary
import JassOutline.Proofs.Expansion.Composition
import JassOutline.Proofs.Declaration.Comments
import JassOutline.Proofs.Zinc.Loop
import JassOutline.Proofs.Zinc.Edit
import JassOutline.Proofs.Zinc.Edit.Routine
import JassOutline.Proofs.Zinc.Edit.Grammar
import JassOutline.Proofs.Zinc.Uncommented
import JassOutline.Proofs.Zinc.Incremental
import JassOutline.Proofs.Token.Resumption
import JassOutline.Proofs.Token.Trailing
import JassOutline.Proofs.Token.Tiling
import JassOutline.Proofs.Token.LineFeed
import JassOutline.Proofs.Token.Respacing
import JassOutline.Proofs.Extraction.Partition
import JassOutline.Proofs.Extraction.Isolation
import JassOutline.Proofs.Declaration.Trailing
import JassOutline.Proofs.Declaration.Nodes
import JassOutline.Proofs.Declaration.Sites
import JassOutline.Proofs.Outline.Uncommented
import JassOutline.Proofs.Declaration.Uncommented
import JassOutline.Proofs.Declaration.Accounting
import JassOutline.Proofs.Bounds
import JassOutline.Proofs.Place.Attachment
import JassOutline.Proofs.Layout.Outline
import JassOutline.Proofs.Layout.Declaration
import JassOutline.Proofs.Layout.Document
import JassOutline.Proofs.LineEnd.Document
import JassOutline.Proofs.BlockComment.Parts
import JassOutline.Proofs.BlockComment.Blanked
import JassOutline.Proofs.Lookup.Document
import JassOutline.Proofs.Expansion.Simultaneous
import JassOutline.Proofs.Lookup.Position
import JassOutline.Proofs.Place.Label
import JassOutline.Proofs.Zinc.VariableList
import JassOutline.Proofs.BodyEdit.Declaration
import JassOutline.Proofs.Zinc.Braces
import JassOutline.Proofs.Zinc.Matching
import JassOutline.Proofs.Zinc.Declares.Grammar
import JassOutline.Proofs.Zinc.Attachment
import JassOutline.Proofs.Zinc.Nesting
import JassOutline.Proofs.Zinc.Parts
import JassOutline.Proofs.Zinc.Parts.Skip
import JassOutline.Proofs.Zinc.Parts.Grammar
import JassOutline.Proofs.Directive.Decoding
import JassOutline.Proofs.Header.Clause
import JassOutline.Proofs.Header.Segment
import JassOutline.Proofs.Declaration.Documentation
import JassOutline.Proofs.CommandLine.Shorthand
