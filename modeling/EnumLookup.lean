import EnumLookup.Main
import EnumLookup.Proofs.Cancellation
import EnumLookup.Proofs.Command.Confinement
import EnumLookup.Proofs.Command.Noticing
import EnumLookup.Proofs.Command.Watching
import EnumLookup.Proofs.Completeness
import EnumLookup.Proofs.Configuration
import EnumLookup.Proofs.Declaration.IgnoredNames
import EnumLookup.Proofs.Declaration.Places
import EnumLookup.Proofs.Declaration.RelativeImports
import EnumLookup.Proofs.Declaration.Unwrapping
import EnumLookup.Proofs.Discovery.Surviving
import EnumLookup.Proofs.Generation.Interruption
import EnumLookup.Proofs.Generation.Origins
import EnumLookup.Proofs.Generation.Succession
import EnumLookup.Proofs.Generation.Unanswered
import EnumLookup.Proofs.Isolation
import EnumLookup.Proofs.Keys
import EnumLookup.Proofs.Marking
import EnumLookup.Proofs.Package.Checking
import EnumLookup.Proofs.Package.Naming
import EnumLookup.Proofs.Package.Outcome
import EnumLookup.Proofs.Package.Rendering
import EnumLookup.Proofs.Packages
import EnumLookup.Proofs.Program.ImportForms
import EnumLookup.Proofs.Program.Reachability
import EnumLookup.Proofs.Program.Renaming
import EnumLookup.Proofs.Program.Siblings
import EnumLookup.Proofs.References
import EnumLookup.Proofs.Reordering
import EnumLookup.Proofs.Sessions
