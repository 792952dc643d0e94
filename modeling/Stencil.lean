import Stencil.CommandLine
import Stencil.Main
import Stencil.Proofs.Callable
import Stencil.Proofs.Catalogue
import Stencil.Proofs.Chains
import Stencil.Proofs.Clash
import Stencil.Proofs.Collected
import Stencil.Proofs.Definitions
import Stencil.Proofs.Destination
import Stencil.Proofs.Edit
import Stencil.Proofs.Environment
import Stencil.Proofs.FailedCommands
import Stencil.Proofs.Faults
import Stencil.Proofs.FirstUse
import Stencil.Proofs.Help
import Stencil.Proofs.Listing
import Stencil.Proofs.Quotes
import Stencil.Proofs.Scaffold
import Stencil.Proofs.Settings
import Stencil.Proofs.SettingsFaults
