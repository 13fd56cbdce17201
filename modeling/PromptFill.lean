import PromptFill.Main
import PromptFill.Proofs.Colour.Css
import PromptFill.Proofs.Template.Matching
import PromptFill.Proofs.Template.Refill
import PromptFill.Proofs.Template.Rendering
import PromptFill.Proofs.Template.Written
import PromptFill.Proofs.Template.Missing
import PromptFill.Proofs.Template.Warning
import PromptFill.Proofs.Template.Html
import PromptFill.Proofs.Settings.Saving
import PromptFill.Proofs.Settings.Loading
import PromptFill.Proofs.Settings.Choosing
import PromptFill.Proofs.Settings.Override
import PromptFill.Proofs.Directories.Overlap
import PromptFill.Proofs.Template.WellFormed
import PromptFill.Proofs.Template.Untouched
import PromptFill.Proofs.Log.Threshold
import PromptFill.Proofs.Template.Concatenation
import PromptFill.Proofs.Log.Delivery
import PromptFill.Proofs.Template.Editing
import PromptFill.Proofs.Template.Remaining
import PromptFill.Proofs.Template.Restoring
import PromptFill.Proofs.Settings.Reloading
import PromptFill.Proofs.Directories.Entries
import PromptFill.Proofs.Settings.Debugging
import PromptFill.Proofs.CommandLine.Options
import PromptFill.Proofs.CommandLine.Arrangement
import PromptFill.Proofs.Program.Runs
import PromptFill.Proofs.Program.Unreadable
import PromptFill.Proofs.Program.Verbosity
