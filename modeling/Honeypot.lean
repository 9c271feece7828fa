import Honeypot.Main
import Honeypot.Proofs.Text.Utf8
import Honeypot.Proofs.Path.Location
import Honeypot.Proofs.Store.Basic
import Honeypot.Proofs.Store.Grounded
import Honeypot.Proofs.Store.Walk
import Honeypot.Proofs.Store.Hierarchy
import Honeypot.Proofs.Process.Lockstep
import Honeypot.Proofs.Recording.Events
import Honeypot.Proofs.Store.Refinement
import Honeypot.Proofs.Stream.Patience
import Honeypot.Proofs.Userland
import Honeypot.Proofs.Shell.Accord
import Honeypot.Proofs.Shell.Bound
import Honeypot.Proofs.Shell.Wired
import Honeypot.Proofs.Shell.Disturbance
import Honeypot.Proofs.Shell.Observation
import Honeypot.Proofs.Shell.CutOff
import Honeypot.Proofs.Process.Containment
import Honeypot.Proofs.Process.Footing
import Honeypot.Proofs.Userland.Effects
import Honeypot.Proofs.Userland.Names
import Honeypot.Proofs.Stream.Typing
import Honeypot.Proofs.Shell.Scanning
import Honeypot.Proofs.Shell.Quotation
import Honeypot.Proofs.Shell.Upkeep
import Honeypot.Proofs.Shell.Working
import Honeypot.Proofs.Shell.Interpreter
import Honeypot.Proofs.Stream.Service
import Honeypot.Proofs.Process.Redirection
import Honeypot.Proofs.Stream.Counting
import Honeypot.Proofs.Shell.Grammar
import Honeypot.Proofs.Text.Json
import Honeypot.Proofs.Recording.Cast
import Honeypot.Proofs.Stream.Restart
import Honeypot.Proofs.Stream.Nesting
import Honeypot.Proofs.Shell.References
import Honeypot.Proofs.Shell.QuotedVariable
import Honeypot.Proofs.Shell.Quotings
import Honeypot.Proofs.Userland.Directories
import Honeypot.Proofs.Userland.Exports
import Honeypot.Proofs.Shell.Variables
import Honeypot.Proofs.Path.Normal
import Honeypot.Proofs.Shell.Prompt
import Honeypot.Proofs.Store.Planting
import Honeypot.Proofs.RootTree
import Honeypot.Proofs.RootTree.Accounts
import Honeypot.Proofs.Store.Making
import Honeypot.Proofs.Store.Listing
import Honeypot.Proofs.Userland.Concatenation
import Honeypot.Proofs.Path.BaseName
import Honeypot.Proofs.Path.Folding
import Honeypot.Proofs.Process.Registry
import Honeypot.Proofs.Shell.Help
import Honeypot.Proofs.Userland.Listing
