import BlockSafe.Main
import BlockSafe.Proofs.Generation.Cancellation
import BlockSafe.Proofs.Generation.ClosedForm
import BlockSafe.Proofs.Generation.Feedback
import BlockSafe.Proofs.Generation.Prompts
import BlockSafe.Proofs.Prompt.Diagnostics
import BlockSafe.Proofs.Prompt.Excerpt
import BlockSafe.Proofs.Provider.AllowList
import BlockSafe.Proofs.Provider.Pipeline
import BlockSafe.Proofs.Reply.CodeBlock
import BlockSafe.Proofs.Reply.Escapes
import BlockSafe.Proofs.Reply.FencedEnvelope
import BlockSafe.Proofs.Reply.LineBreaks
import BlockSafe.Proofs.Reply.Peeling
import BlockSafe.Proofs.Reply.RoundTrip
import BlockSafe.Proofs.Rule.Arguments
import BlockSafe.Proofs.Rule.LineBreaks
import BlockSafe.Proofs.Rule.LoopHeaders
import BlockSafe.Proofs.Rule.MaskedStrings
import BlockSafe.Proofs.Rule.StringContents
import BlockSafe.Proofs.Rule.Units
import BlockSafe.Proofs.Settings.Overrides
import BlockSafe.Proofs.Text.Blanking
import BlockSafe.Proofs.Text.CommentFree
import BlockSafe.Proofs.Text.Objects
import BlockSafe.Proofs.Verdict.Comments
import BlockSafe.Proofs.Verdict.ForeignTokens
import BlockSafe.Proofs.Verdict.HiddenLiterals
import BlockSafe.Proofs.Verdict.OperatorSigns
import BlockSafe.Proofs.Verdict.Surroundings
import BlockSafe.Proofs.Verdict.Targets
