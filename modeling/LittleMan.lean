import LittleMan.CommandLine.Folder
import LittleMan.Device.Buffer
import LittleMan.Device.Channel
import LittleMan.Main
import LittleMan.Proofs.Assembly.Meaning
import LittleMan.Proofs.CommandLine.Run
import LittleMan.Proofs.CommandLine.Channels
import LittleMan.Proofs.CommandLine.Files
import LittleMan.Proofs.Machine.Calls
import LittleMan.Proofs.Session.ByHand
import LittleMan.Proofs.Assembly.Strict
import LittleMan.Proofs.Source.Words
import LittleMan.Proofs.Statement
import LittleMan.Proofs.Machine.Ledger
import LittleMan.Proofs.Session.Limited
import LittleMan.Proofs.Session.Books
import LittleMan.Proofs.Assembly.Lenient
import LittleMan.Proofs.Session.Stops
import LittleMan.Proofs.Session.Arrival
import LittleMan.Proofs.Activity
import LittleMan.Proofs.Session.SinceInput
import LittleMan.Proofs.Machine.Trail
import LittleMan.Proofs.Session.CallActivity
import LittleMan.Proofs.Source.Written
import LittleMan.Proofs.Statement.Form
import LittleMan.Proofs.Assembly.Agreement
import LittleMan.Proofs.Assembly.Canonical
import LittleMan.Proofs.CommandLine.Listing
import LittleMan.Proofs.Assembly.Lookup
import LittleMan.Proofs.Machine.ThreeDigits
import LittleMan.Proofs.Machine.Strictness
import LittleMan.Proofs.Source.Layout
import LittleMan.Proofs.Assembly.Renaming
import LittleMan.Proofs.Assembly.Edits
import LittleMan.Proofs.Session.Report
import LittleMan.Proofs.Session.Budget
import LittleMan.Proofs.Machine.Words
import LittleMan.Proofs.Session.Overflow
import LittleMan.Proofs.Device.Interleaving
import LittleMan.Proofs.Machine.Effects
import LittleMan.Proofs.Machine.InPlace
import LittleMan.Proofs.Assembly.Warnings
import LittleMan.Proofs.Source.Places
import LittleMan.Proofs.Assembly.Refusals
import LittleMan.Proofs.Machine.Sums
import LittleMan.Proofs.Source.Positions
import LittleMan.Proofs.CommandLine.Report
import LittleMan.Proofs.Assembly.Extent
import LittleMan.Proofs.CommandLine.Image
import LittleMan.Proofs.Source.Rules
import LittleMan.Proofs.Source.Tiling
