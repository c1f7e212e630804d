import LineShell.CommandLine.Clause
import LineShell.Main
import LineShell.Proofs.Action.Leaves
import LineShell.Proofs.Action.Perform
import LineShell.Proofs.Child.Interleaving
import LineShell.Proofs.CommandLine.FirstWord
import LineShell.Proofs.Session.Echo
import LineShell.Proofs.CommandLine.LastClause
import LineShell.Proofs.Program.Delivery
import LineShell.Proofs.Program.LifeCycle
import LineShell.Proofs.Program.Perform
import LineShell.Proofs.Program.Redirected
import LineShell.Proofs.Session.Compositional
import LineShell.Proofs.Session.Directory
import LineShell.Proofs.Session.Files
import LineShell.Proofs.Session.Framed
import LineShell.Proofs.Session.Levels
import LineShell.Proofs.Session.Perform
import LineShell.Proofs.Session.Redirected
import LineShell.Proofs.Session.Transparent
import LineShell.Proofs.Target.Redirected
import LineShell.Proofs.Text.Trimmed
import LineShell.Proofs.Tree.Canonical
import LineShell.Proofs.Tree.Frame
import LineShell.Proofs.Tree.Opened
import LineShell.Proofs.Words.Meaning
import LineShell.Tree.Leads
import LineShell.Tree.Sound
import LineShell.Words.Spelling
import LineShell.Proofs.Words.Protected
import LineShell.Proofs.Action.Breaks
import LineShell.Proofs.Session.Arguments
import LineShell.Proofs.Tree.Nesting
import LineShell.Proofs.Session.Breaks
import LineShell.Proofs.Action.Notable
import LineShell.Proofs.Program.Notable
import LineShell.Proofs.Session.Contained
import LineShell.Proofs.Console.Division
import LineShell.Proofs.Invocation.Loop
import LineShell.Proofs.Invocation.Endings
import LineShell.Proofs.Session.Plain
import LineShell.Proofs.Tree.Absolute
import LineShell.Proofs.Session.Host
import LineShell.Proofs.Session.Launches
import LineShell.Proofs.Invocation.SingleLine
import LineShell.Proofs.Session.Described
import LineShell.Proofs.Tree.Ways
import LineShell.Tree.LinkFree
import LineShell.Proofs.Tree.LinkFree
import LineShell.Proofs.Search.Directory
import LineShell.Proofs.Session.Moving
import LineShell.Proofs.Tree.Parts
import LineShell.Proofs.Tree.Grown
import LineShell.Proofs.Tree.Missing
import LineShell.Proofs.Tree.Reopened
import LineShell.Proofs.Target.Opening
import LineShell.Proofs.Path.Clean
import LineShell.Proofs.Tree.Overlong
import LineShell.Proofs.Words.Repaired
import LineShell.Proofs.Search.FirstMatch
import LineShell.Proofs.Search.Settled
import LineShell.Proofs.Text.UpperCase
import LineShell.Proofs.Settings.LevelName
import LineShell.Proofs.CommandLine.Rewritten
import LineShell.Proofs.Words.Quotation
import LineShell.Proofs.Words.Ends
import LineShell.Proofs.CommandLine.Words
import LineShell.Proofs.CommandLine.Quoted
import LineShell.Proofs.Session.Quoted
import LineShell.Proofs.Console.Reading
import LineShell.Proofs.Settings.History
import LineShell.Proofs.Invocation.Safety
