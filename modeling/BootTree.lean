/-
  A boot server: the tree of files that machines boot from over the network, kept in step with a
  registry of distributions and hosts.

  The library has a program and its theory.  A file system is a value of type `FileTree`, with
  directories and plain files, and one process at a time works on it.  What becomes of an advisory
  lock is a parameter (`Process.locking`); so is the tag of the process, and the generator of a pass.

  Left out are links, permissions, owners and times of files, paths that are not text, faults of a
  device within the bytes of a file (for files written at one stroke see `BrokenOff`), log lines and
  the switch that makes them longer, and the words in which a parser says what is wrong with a
  document.  No time enters a pass; a report gets one when it is printed.
-/
import BootTree.Value
import BootTree.Source
import BootTree.Decimal.Notation
import BootTree.Decimal.Reading
import BootTree.Text.Quoted
import BootTree.Json.Parser
import BootTree.Json.Printer
import BootTree.Path
import BootTree.Glob.Pattern
import BootTree.Hash.Sha256
import BootTree.Template
import BootTree.Settings.ModuleNames
import BootTree.Settings.Schema
import BootTree.Files.Trail
import BootTree.Files.Tree
import BootTree.Files.Change
import BootTree.Glob.Expand
import BootTree.Registry.Registry
import BootTree.Blend
import BootTree.Menu
import BootTree.Sync.Pass
import BootTree.Sync.Pxe
import BootTree.Toml.Parser
import BootTree.Toml.Printer
import BootTree.Yaml.Place
import BootTree.Yaml.Fold
import BootTree.Yaml.Label
import BootTree.Yaml.Token
import BootTree.Yaml.Parser
import BootTree.Yaml.Printer
import BootTree.Document
import BootTree.Settings.Migration
import BootTree.Sync.Report
import BootTree.Command.Run
import BootTree.Main
import BootTree.Proofs.Outcome
import BootTree.Proofs.Fields
import BootTree.Proofs.Glob.OwnText
import BootTree.Proofs.Files.Trail
import BootTree.Proofs.Files.View
import BootTree.Proofs.Files.Write
import BootTree.Proofs.Files.Growth
import BootTree.Proofs.Files.Success
import BootTree.Proofs.Files.Atomic
import BootTree.Proofs.Files.Settle
import BootTree.Proofs.Files.Parents
import BootTree.Proofs.Settings.Schema
import BootTree.Proofs.Settings.Migration
import BootTree.Proofs.Registry.Additions
import BootTree.Proofs.Registry.BootFileName
import BootTree.Proofs.Registry.CommandLine
import BootTree.Proofs.Sync.Trace
import BootTree.Proofs.Sync.Calls
import BootTree.Proofs.Sync.Isolation
import BootTree.Proofs.Files.Copy
import BootTree.Proofs.Sync.Copier
import BootTree.Proofs.Sync.Menu
import BootTree.Proofs.Sync.Failures
import BootTree.Proofs.Files.Join
import BootTree.Proofs.Sync.Staging
import BootTree.Proofs.Sync.Steps
import BootTree.Proofs.Sync.Runs
import BootTree.Proofs.Sync.Frames
import BootTree.Proofs.Sync.Mirror
import BootTree.Proofs.Sync.BootFiles
import BootTree.Proofs.Sync.Idempotence
import BootTree.Proofs.Sync.Partial
import BootTree.Proofs.Sync.HostFiles
import BootTree.Proofs.Sync.ImageDirectories
import BootTree.Proofs.Settings.Projection
import BootTree.Proofs.Settings.Verdict
import BootTree.Proofs.Settings.Effects
import BootTree.Proofs.Sync.OwnNames
import BootTree.Proofs.Sync.SecondCopy
import BootTree.Proofs.Sync.Accounting
import BootTree.Proofs.Sync.MenuFile
import BootTree.Proofs.Files.Footprint
import BootTree.Proofs.Sync.Footprint
import BootTree.Proofs.Registry.Loading
import BootTree.Proofs.Source
import BootTree.Proofs.Registry.Documents
import BootTree.Proofs.MenuText
import BootTree.Proofs.Template
import BootTree.Proofs.TemplateScan
import BootTree.Proofs.Layers
import BootTree.Proofs.Settings.Renaming
import BootTree.Proofs.Settings.Occurrences
import BootTree.Proofs.Views
import BootTree.Proofs.Sync.HostContents
import BootTree.Proofs.Sync.HostTemplates
import BootTree.Proofs.Path
import BootTree.Proofs.Sync.FanOut
import BootTree.Proofs.Files.Refresh
import BootTree.Proofs.Sync.Declared
import BootTree.Proofs.Files.Names
import BootTree.Proofs.Files.Directories
import BootTree.Proofs.Sync.Obstacles
import BootTree.Proofs.PathAlgebra
import BootTree.Proofs.TemplateLookup
import BootTree.Proofs.Json.Tokens
import BootTree.Proofs.Json.RoundTrip
import BootTree.Proofs.Settings.Saving
import BootTree.Proofs.Registry.DeclaredFiles
