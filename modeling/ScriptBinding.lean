import ScriptBinding.Text.Hex
import ScriptBinding.Text.Hidden
import ScriptBinding.Text.Quoted
import ScriptBinding.Text.Layout
import ScriptBinding.Table
import ScriptBinding.Handle
import ScriptBinding.Message
import ScriptBinding.Fault
import ScriptBinding.Log
import ScriptBinding.Registry.Key
import ScriptBinding.Registry.Basic
import ScriptBinding.Registry.Step
import ScriptBinding.Registry.Session
import ScriptBinding.Registry.Listing
import ScriptBinding.Policy
import ScriptBinding.Event
import ScriptBinding.DefaultVm
import ScriptBinding.Config
import ScriptBinding.Vm
import ScriptBinding.Binding.Basic
import ScriptBinding.Binding.Step
import ScriptBinding.Binding.Session
import ScriptBinding.ProcessWide.World
import ScriptBinding.ProcessWide.Step
import ScriptBinding.ProcessWide.Run
import ScriptBinding.Shared.Heap
import ScriptBinding.Shared.Store
import ScriptBinding.Shared.Step
import ScriptBinding.Shared.Life
import ScriptBinding.Proofs.Registry.Modes
import ScriptBinding.Proofs.Registry.Conversions
import ScriptBinding.Proofs.Shared.Exact
import ScriptBinding.Proofs.Shared.Moves
import ScriptBinding.Proofs.Shared.Passes
import ScriptBinding.Proofs.Shared.Ownership
import ScriptBinding.Proofs.Shared.Cascade
import ScriptBinding.Proofs.Shared.History
import ScriptBinding.Proofs.Shared.Release
import ScriptBinding.Proofs.Shared.Leaks
import ScriptBinding.Proofs.Binding.FirstWins
import ScriptBinding.Proofs.Binding.Ledger
import ScriptBinding.Proofs.Binding.Logged
import ScriptBinding.Proofs.Binding.Forwarded
import ScriptBinding.Proofs.Binding.Transcript
import ScriptBinding.Proofs.Binding.Conversions
import ScriptBinding.Proofs.ProcessWide.Flat
import ScriptBinding.Proofs.ProcessWide.Explicit
import ScriptBinding.Proofs.ProcessWide.Termination
import ScriptBinding.Proofs.ProcessWide.Twins
import ScriptBinding.Proofs.ProcessWide.Conversions
import ScriptBinding.Proofs.Conversions
import ScriptBinding.Proofs.Binding.Effects
import ScriptBinding.Proofs.Binding.Noninterference
import ScriptBinding.Proofs.Lineage
import ScriptBinding.Proofs.Registry.Lineage
import ScriptBinding.Proofs.Binding.Lineage
import ScriptBinding.Proofs.ProcessWide.Attempts
import ScriptBinding.Proofs.ProcessWide.Interleaving
import ScriptBinding.Proofs.ProcessWide.Raising
import ScriptBinding.Proofs.Registry.Views
import ScriptBinding.Proofs.Registry.Renaming
import ScriptBinding.Proofs.Binding.Settings
import ScriptBinding.Proofs.Shared.Assignment
import ScriptBinding.Proofs.Shared.Foreign
import ScriptBinding.Proofs.Shared.Upcasting
import ScriptBinding.Proofs.Shared.Values
import ScriptBinding.Proofs.Binding.Configuring
import ScriptBinding.Proofs.Indexing
import ScriptBinding.Proofs.Text.Numerals
import ScriptBinding.Proofs.Registry.Shown
import ScriptBinding.Proofs.Arising
import ScriptBinding.Proofs.Naming
