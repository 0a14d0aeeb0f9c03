import Roster.CommandLine.Printer
import Roster.Main
import Roster.Pending
import Roster.Regular.Reader
import Roster.Service.Op
import Roster.Proofs.Saver.Basic
import Roster.Proofs.Saver.Recording
import Roster.Proofs.Saver.Course
import Roster.Proofs.Saver.Accounting
import Roster.Proofs.Saver.Closing
import Roster.Proofs.Search.Found
import Roster.Proofs.Service.Refinement
import Roster.Proofs.Service.Identifiers
import Roster.Proofs.Service.Announcement
import Roster.Proofs.Saver.Chronicle
import Roster.Proofs.Saver.Capacity
import Roster.Proofs.Saver.Schedule
import Roster.Proofs.Saver.Sending
import Roster.Proofs.Saver.Flushing
import Roster.Proofs.Saver.Resending
import Roster.Proofs.Saver.Reporting
import Roster.Proofs.Saver.Concurrency
import Roster.Proofs.Saver.Handles
import Roster.Proofs.Service.Frame
import Roster.Proofs.Service.Creating
import Roster.Proofs.Ingest.Agreement
import Roster.Proofs.Ingest.Handover
import Roster.Proofs.Ingest.Exporting
import Roster.Proofs.Ingest.Fatal
import Roster.Proofs.Ingest.Stopping
import Roster.Proofs.Program.Admission
import Roster.Proofs.Service.Reopening
import Roster.Proofs.Store.File
import Roster.Proofs.Team.Json
import Roster.Proofs.Event.Delivery
import Roster.Proofs.CommandLine.Grammar
import Roster.Proofs.CommandLine.Scanning
import Roster.Proofs.CommandLine.Acceptance
import Roster.Proofs.CommandLine.Given
import Roster.Proofs.CommandLine.Rewriting
import Roster.Proofs.CommandLine.Precedence
import Roster.Proofs.Program.Preconditions
import Roster.Proofs.Store.Paging
import Roster.Proofs.Search.Phrase
import Roster.Proofs.Command.Printing
import Roster.Proofs.CommandLine.Expressing
import Roster.Proofs.Saver.Waiting
import Roster.Proofs.Team.Display
import Roster.Proofs.Pending
