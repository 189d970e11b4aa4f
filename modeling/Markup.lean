import Markup.Schedule
import Markup.Expr
import Markup.Renderer
import Markup.Inspect
import Markup.Proofs.Settled
import Markup.Proofs.Arrival
import Markup.Proofs.Survivors
import Markup.Proofs.Completion
import Markup.Proofs.Escaping
import Markup.Proofs.Numerals
import Markup.Proofs.ReadBack
import Markup.Proofs.InsertionOrder
import Markup.Proofs.Announcement
import Markup.Proofs.Quoting
import Markup.Proofs.Slots
import Markup.Proofs.Leaves
import Markup.Proofs.Grouping
import Markup.Proofs.Appending
import Markup.Proofs.Commas
import Markup.Proofs.PrintedText
import Markup.Proofs.Routes
import Markup.Proofs.Refusal
import Markup.Proofs.Unescaping
import Markup.Proofs.Shortest
import Markup.Proofs.PlaceValue
import Markup.Proofs.Denotation
import Markup.Proofs.Boundaries
import Markup.Proofs.Parts
import Markup.Proofs.Lossless
import Markup.Record.Declared
import Markup.Proofs.NameForms
import Markup.Proofs.Entries
import Markup.Proofs.Declarations
import Markup.Proofs.Rounding
import Markup.Proofs.RoundedNaturals
import Markup.Proofs.Wholes
import Markup.Proofs.WholeDocuments
import Markup.Proofs.Tenths
import Markup.Proofs.Integers
import Markup.Proofs.Continuation
import Markup.Proofs.Fields
import Markup.Proofs.KnownKeys
